import Smo.RanNfOam.ConfigJobs.Ballots

/-! The decisions on the approvals of rApp actions leave them in order. -/
namespace Smo.RanNfOam.ConfigJobs

open Transaction

section Decisions

variable {σ : Type} {o1 : O1Clients σ} {site : Site} {now : Time}
  {asked : List RAppActionApproval} {s : Session Store (Wire σ)} {row : RAppActionApproval}
  {name : String}

theorem approval?_mem {store : Store} {approvalId : Nat}
    (found : store.approval? approvalId = some row) :
    row ∈ store.approvals ∧ row.approvalId = approvalId :=
  ⟨List.mem_of_find?_eq_some found, by simpa using List.find?_some found⟩

theorem Deciding.neutral {request : Request} {claimed : Option String}
    (deciding : Deciding site request claimed row name) :
    Neutral site row.requiredApprovals name row.requestedBy row.invokerId := by
  have other := deciding.other
  simp only [decidesOwn, Bool.or_eq_false_iff, decide_eq_false_iff_not] at other
  obtain ⟨⟨⟨notInvoker, notRequester⟩, -⟩, spelled⟩ := other
  refine ⟨notRequester, notInvoker, fun two => ?_⟩
  simp only [gt_iff_lt, two, decide_true, Bool.true_and, Bool.or_eq_false_iff] at spelled
  refine ⟨spelled.2, ?_⟩
  rintro _ ⟨⟩
  exact spelled.1

theorem FourEyes.noJob (eyes : FourEyes site row) (status : row.status = .pending) :
    row.jobId = none := by
  by_contra made
  have approved := eyes.job (Option.isSome_iff_ne_none.mpr made)
  rw [status] at approved
  cases approved

def withVote (row : RAppActionApproval) (vote : Vote) : RAppActionApproval :=
  { row with approvals := row.approvals ++ [vote] }

theorem votes_add (eyes : FourEyes site row) (given : alreadyGiven site row name = false)
    (neutral : Neutral site row.requiredApprovals name row.requestedBy row.invokerId) (vote : Vote)
    (voter : vote.decidedBy = name) :
    Independent site row.requiredApprovals ((row.approvals ++ [vote]).map (·.decidedBy))
      row.requestedBy row.invokerId := by
  rw [List.map_append, List.map_singleton, voter]
  refine eyes.votes.add (fun other mem => ?_) neutral
  obtain ⟨earlier, inside, rfl⟩ := List.mem_map.mp mem
  simp only [alreadyGiven, List.any_eq_false, Bool.not_eq_true] at given
  exact given earlier inside

theorem lapsed_eyes {row' : RAppActionApproval} (eyes : FourEyes site row)
    (late : lapsed now row = some row') : SameAsk row row' ∧ FourEyes site row' := by
  unfold lapsed at late
  split at late
  next => cases late
  next open_ =>
    cases late
    have pending : row.status = .pending := by
      by_contra other
      exact open_ (.inl other)
    refine ⟨⟨rfl, rfl, rfl, rfl⟩, eyes.open_ ⟨rfl, rfl, rfl, rfl⟩ rfl ?_ (eyes.noJob pending)⟩
    dsimp only
    split <;> decide

theorem Polled.lapse (polled : Polled site asked s) {row' : RAppActionApproval}
    (mem : row ∈ s.working.approvals) (late : lapsed now row = some row') :
    Polled site asked (withApproval s row') := by
  obtain ⟨same, eyes⟩ := lapsed_eyes (polled.working.fourEyes row mem) late
  have put : Ballots site asked (putRow s.working.approvals row') := polled.working.put mem same eyes
  exact ⟨put, put⟩

theorem keeps_lapseIfDue (polled : Polled site asked s) (mem : row ∈ s.working.approvals) :
    Ensures (· = s) (lapseIfDue now row : Db σ Bool) (fun _ => Polled site asked)
      (Polled site asked) := by
  unfold lapseIfDue
  cases late : lapsed now row with
  | none => exact fun _ same => same ▸ polled
  | some row' =>
    rintro _ rfl
    exact polled.lapse mem late

theorem keeps_lapseEach (ids : List Nat) : Keeps site asked (lapseEach now ids : Db σ Unit) := by
  induction ids with
  | nil => exact keeps_pure _
  | cons approvalId rest ih =>
    apply Ensures.each
    intro s polled
    unfold lapseEach
    apply Ensures.reads
    cases found : s.working.approval? approvalId with
    | none => exact ih.of_pre fun _ same => same ▸ polled
    | some row => exact (keeps_lapseIfDue polled (approval?_mem found).1).bind fun _ => ih

theorem keeps_readApproval (request : Request) (approvalId : Nat) :
    Keeps site asked (readApproval now request approvalId : Db σ RAppActionApproval) := by
  apply Ensures.each
  intro s polled
  unfold readApproval
  apply (approvalOr404_found polled _).bind
  intro row
  apply Ensures.of_fact
  intro found
  apply Ensures.ite
  · exact fun _ _ same => same ▸ polled
  intro _
  apply (keeps_lapseIfDue polled (approval?_mem found).1).bind
  intro _
  apply Ensures.each
  intro t polled
  exact (approvalOr404_found polled approvalId).weaken (fun _ same => same)
    (fun _ _ found => found.2 ▸ polled) fun _ raised => raised

theorem Polled.decide (polled : Polled site asked s) (mem : row ∈ s.working.approvals)
    {row' : RAppActionApproval} (same : SameAsk row row') (eyes : FourEyes site row') :
    Polled site asked (withApproval s row') := by
  have put : Ballots site asked (putRow s.working.approvals row') := polled.working.put mem same eyes
  exact ⟨put, put⟩

theorem keeps_rejectAction (polled : Polled site asked s) (request : Request) (approvalId : Nat)
    (body : ApprovalDecisionRequest) :
    Ensures (· = s) (rejectAction site now request approvalId body : Db σ Unit)
      (fun _ => Polled site asked) (Polled site asked) := by
  unfold rejectAction
  apply (decidable_found polled approvalId
    (fun row row' found late => polled.lapse (approval?_mem found).1 late) request body).bind
  intro found
  apply Ensures.of_fact
  rintro ⟨inStore, deciding⟩ _ rfl
  have mem := (approval?_mem inStore).1
  have eyes := polled.working.fourEyes _ mem
  exact polled.decide mem ⟨rfl, rfl, rfl, rfl⟩
    (eyes.open_ ⟨rfl, rfl, rfl, rfl⟩ rfl nofun (eyes.noJob deciding.pending))

theorem keeps_runApproved (before : RAppActionApproval) (mem : before ∈ asked)
    (same : SameAsk before row) (pending : row.status = .pending) (eyes : FourEyes site row)
    (reason : Option String)
    (enough : row.requiredApprovals ≤
      (approvers { row with decidedBy := some name }).length)
    (independent : Independent site row.requiredApprovals (approvers { row with decidedBy := some name })
      row.requestedBy row.invokerId) :
    Keeps site asked (runApproved o1 site now row name reason) := by
  apply (keeps_refuseIfKilled _ _).bind
  intro _
  apply (keeps_enforceRappLimit _ _).bind
  intro _
  apply (keeps_enforceScope _ _ _ _).bind
  intro _
  apply (keeps_enforceChangeLimits _ _).bind
  intro _
  have isOpen : row.status ≠ .approved := by
    rw [pending]
    decide
  refine Keeps.bind (keeps_putApproval mem ⟨same.approvalId, same.requestedBy, same.invokerId,
    same.requiredApprovals⟩ (eyes.open_ ⟨rfl, rfl, rfl, rfl⟩ rfl isOpen (eyes.noJob pending)))
    fun _ => ?_
  refine keeps_executeWriteWith keeps_autoRevert _ _ ?_
  rintro _ ⟨⟩
  exact ⟨before, mem, ⟨same.approvalId, same.requestedBy, same.invokerId, same.requiredApprovals⟩,
    enough, independent, eyes.votes⟩

theorem keeps_closeRefused (before : RAppActionApproval) (mem : before ∈ asked)
    (neutral : Neutral site before.requiredApprovals name before.requestedBy before.invokerId)
    (reason : Option String) (problem : Problem) :
    Keeps site asked (closeRefused site now before.approvalId name reason problem : Db σ Unit) := by
  apply Ensures.each
  intro s polled
  unfold closeRefused
  apply (approvalOr404_found polled _).bind
  intro row
  apply Ensures.of_fact
  intro found
  apply Ensures.ite
  · exact fun _ _ same => same ▸ polled
  intro waits
  have pending : row.status = .pending := by
    by_contra other
    exact waits other
  obtain ⟨inStore, id⟩ := approval?_mem found
  obtain ⟨kept, inside, same⟩ := polled.working.kept before mem
  have is := polled.working.same inside inStore (same.approvalId.trans id.symm)
  subst is
  have eyes := polled.working.fourEyes _ inStore
  rintro _ rfl
  refine polled.decide inStore ⟨rfl, rfl, rfl, rfl⟩ ⟨?_, nofun, fun job => ?_⟩
  · dsimp only
    split
    next voted =>
      simp only [gt_iff_lt, Bool.and_eq_true, decide_eq_true_eq, Bool.not_eq_true'] at voted
      rw [← same.requestedBy, ← same.invokerId, ← same.requiredApprovals] at neutral
      exact votes_add eyes voted.2 neutral _ rfl
    next => exact eyes.votes
  · rw [show _ = none from eyes.noJob pending] at job
    cases job

theorem keeps_exceptProblem {α : Type} {x : Db σ α} {handle : Problem → Db σ α}
    (first : Ensures (· = s) x (fun _ => Polled site asked) (Polled site asked))
    (handled : ∀ problem, Keeps site asked (handle problem)) :
    Ensures (· = s) (exceptProblem x handle) (fun _ => Polled site asked) (Polled site asked) :=
  exceptProblem_ensures first (fun _ polled => polled) handled

theorem voted_enough (eyes : FourEyes site row)
    (given : ¬(row.requiredApprovals > 1 ∧ alreadyGiven site row name))
    (last : ¬(row.requiredApprovals > 1 ∧ row.approvals.length + 1 < row.requiredApprovals))
    (neutral : Neutral site row.requiredApprovals name row.requestedBy row.invokerId) (vote : Vote)
    (voter : vote.decidedBy = name) {row' : RAppActionApproval}
    (is : row' = if row.requiredApprovals > 1 then withVote row vote else row) :
    row'.requiredApprovals ≤ (approvers { row' with decidedBy := some name }).length ∧
      Independent site row'.requiredApprovals (approvers { row' with decidedBy := some name })
        row'.requestedBy row'.invokerId := by
  unfold approvers
  by_cases two : row.requiredApprovals > 1
  · rw [if_pos two] at is
    subst is
    have notGiven : alreadyGiven site row name = false := by
      by_contra again
      exact given ⟨two, by simpa using again⟩
    have independent := votes_add eyes notGiven neutral vote voter
    have length : row.requiredApprovals ≤ (row.approvals ++ [vote]).length := by
      rw [List.length_append, List.length_singleton]
      by_contra short
      exact last ⟨two, by omega⟩
    rw [if_pos (show (withVote row vote).requiredApprovals > 1 from two)]
    refine ⟨?_, independent⟩
    rw [List.length_map]
    exact length
  · rw [if_neg two] at is
    subst is
    rw [if_neg two]
    exact ⟨by simpa using two, .single neutral⟩

theorem keeps_approveAction (polled : Polled site asked s) (begins : s.working.approvals = asked)
    (request : Request) (approvalId : Nat) (body : ApprovalDecisionRequest) :
    Ensures (· = s) (approveAction o1 site now request approvalId body)
      (fun _ => Polled site asked) (Polled site asked) := by
  unfold approveAction
  apply (decidable_found polled approvalId
    (fun row row' found late => polled.lapse (approval?_mem found).1 late) request body).bind
  intro found
  apply Ensures.of_fact
  rintro ⟨inStore, deciding⟩
  obtain ⟨mem, id⟩ := approval?_mem inStore
  have inAsked : found.1 ∈ asked := begins ▸ mem
  have eyes := polled.working.fourEyes _ mem
  have pending := deciding.pending
  have isOpen : found.1.status ≠ .approved := by
    rw [pending]
    decide
  have neutral := deciding.neutral
  have eyesWith : alreadyGiven site found.1 found.2 = false →
      FourEyes site (withVote found.1 ⟨found.2, now, body.reason⟩) := fun given =>
    ⟨votes_add eyes given neutral _ rfl, fun approved => absurd approved isOpen,
      fun job => eyes.job job⟩
  apply Ensures.ite
  · exact fun _ _ same => same ▸ polled
  intro given
  apply Ensures.ite
  · rintro ⟨two, -⟩ _ rfl
    have notGiven : alreadyGiven site found.1 found.2 = false := by
      by_contra again
      exact given ⟨two, by simpa using again⟩
    exact polled.decide mem ⟨rfl, rfl, rfl, rfl⟩ (eyesWith notGiven)
  intro last
  have runs : ∀ row, row = (if found.1.requiredApprovals > 1 then
      withVote found.1 ⟨found.2, now, body.reason⟩ else found.1) →
      Ensures (· = s) (do
          update (·.putApproval row)
          let _ ← exceptProblem (runApproved o1 site now row found.2 body.reason) fun problem => do
            rollback
            closeRefused site now approvalId found.2 body.reason problem
            throw (.problem problem)
          return ())
        (fun _ => Polled site asked) (Polled site asked) := by
    intro row isRow
    have same : SameAsk found.1 row := by
      rw [isRow]
      split <;> exact ⟨rfl, rfl, rfl, rfl⟩
    have status : row.status = .pending := by
      rw [isRow]
      split <;> exact pending
    have rowEyes : FourEyes site row := by
      rw [isRow]
      split
      next two =>
        refine eyesWith ?_
        by_contra again
        exact given ⟨two, by simpa using again⟩
      next => exact eyes
    obtain ⟨enough, independent⟩ := voted_enough eyes given last neutral _ rfl isRow
    refine Ensures.bind ((keeps_putApproval inAsked same rowEyes).of_pre
      fun _ same => same ▸ polled) fun _ => Ensures.each fun t polled => ?_
    have ran : Keeps site asked (runApproved o1 site now row found.2 body.reason) :=
      keeps_runApproved found.1 inAsked same status rowEyes body.reason enough independent
    apply (keeps_exceptProblem (ran.of_pre fun _ same => same ▸ polled) fun problem => ?_).bind
    · exact fun _ => keeps_pure _
    · apply keeps_rollback.bind
      intro _
      rw [← id]
      exact (keeps_closeRefused found.1 inAsked neutral _ _).bind fun _ => keeps_throw _
  exact runs _ rfl

end Decisions

end Smo.RanNfOam.ConfigJobs
