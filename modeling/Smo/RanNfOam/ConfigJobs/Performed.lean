import Smo.RanNfOam.ConfigJobs.Reached

/-! The routes of the rApp approvals keep the session ahead of what is committed, and so
every request takes the committed board along moves. -/
namespace Smo.RanNfOam.ConfigJobs

open Transaction Runs

section Routes

variable {σ : Type} {o1 : O1Clients σ} {site : Site} {setting : Setting} {start : Board}
  {others : List JobRows} {s : Session Store (Wire σ)}

theorem approval?_put {store : Store} {approvalId : Nat} {row row' : RAppActionApproval}
    (found : store.approval? approvalId = some row) (same : row'.approvalId = row.approvalId) :
    (store.putApproval row').approval? approvalId = some row' := by
  have id := (List.find?_some found)
  have keeps : ((fun other : RAppActionApproval => decide (other.approvalId = approvalId)) ∘
      fun old => if old.approvalId = row'.approvalId then row' else old) =
      fun other => decide (other.approvalId = approvalId) := by
    funext old
    simp only [Function.comp]
    split
    next replaced => rw [replaced]
    next => rfl
  rw [Store.approval?, Store.putApproval, List.find?_map, keeps]
  rw [Store.approval?] at found
  rw [found, Option.map_some, if_pos same.symm]

theorem approvalOr404_found {raises : Session Store (Wire σ) → Prop} (here : raises s)
    (approvalId : Nat) :
    Ensures (· = s) (approvalOr404 approvalId : Db σ RAppActionApproval)
      (fun row t => s.working.approval? approvalId = some row ∧ t = s) raises := by
  apply Ensures.reads
  cases found : s.working.approval? approvalId with
  | none => exact fun _ same => same ▸ here
  | some row => exact fun _ same => ⟨rfl, same⟩

def withApproval (s : Session Store (Wire σ)) (row : RAppActionApproval) :
    Session Store (Wire σ) :=
  { s with working := s.working.putApproval row, committed := s.working.putApproval row }

theorem putApproval_ahead (ahead : Ahead o1 setting start others s) (row : RAppActionApproval) :
    Ahead o1 setting start others (withApproval s row) :=
  (ahead.unseen (·.putApproval row) rfl rfl).worked.committed

theorem lapsed_facts {now : Time} {row row' : RAppActionApproval} (late : lapsed now row = some row') :
    row'.approvalId = row.approvalId ∧ row'.status ≠ .pending := by
  unfold lapsed at late
  split at late
  next => cases late
  next =>
    cases late
    refine ⟨rfl, ?_⟩
    dsimp only
    split <;> decide

structure Deciding (site : Site) (request : Request) (claimed : Option String)
    (row : RAppActionApproval) (name : String) : Prop where
  pending : row.status = .pending
  verified : verifiedDecider request claimed = some name
  other : decidesOwn site request row name = false

theorem decidable_found {raises : Session Store (Wire σ) → Prop} {now : Time} (here : raises s)
    (approvalId : Nat) (late : ∀ row row', s.working.approval? approvalId = some row →
      lapsed now row = some row' → raises (withApproval s row'))
    (request : Request) (body : ApprovalDecisionRequest) :
    Ensures (· = s) (decidable site now request approvalId body : Db σ _)
      (fun found t => (s.working.approval? approvalId = some found.1 ∧
        Deciding site request body.decidedBy found.1 found.2) ∧ t = s) raises := by
  have refused : ∀ {α : Type} {post : α → Session Store (Wire σ) → Prop} (exc : Raised),
      Ensures (· = s) (throw exc : Db σ α) post raises := fun _ _ same => same ▸ here
  unfold decidable
  apply Ensures.ite
  · exact fun _ => refused _
  intro _
  apply (decider_found here _ _).bind
  intro name
  apply Ensures.of_fact
  intro verified
  apply (approvalOr404_found here _).bind
  intro row
  apply Ensures.of_fact
  intro found
  apply Ensures.ite
  · exact fun _ => refused _
  intro other
  unfold lapseIfDue
  cases isLate : lapsed now row with
  | some row' =>
    obtain ⟨same, ended⟩ := lapsed_facts isLate
    have here' := late row row' found isLate
    rintro _ rfl
    refine ((approvalOr404_found here' approvalId).bind fun again => ?_) _ rfl
    apply Ensures.of_fact
    intro found'
    rw [withApproval, approval?_put found same] at found'
    cases found'
    rw [if_neg ended]
    exact fun _ same => same ▸ here'
  | none =>
    simp only [pure_bind]
    apply (approvalOr404_found here _).bind
    intro again
    apply Ensures.of_fact
    intro found'
    apply Ensures.ite
    · intro pending _ same
      cases found.symm.trans found'
      exact ⟨⟨found, pending, verified, by simpa using other⟩, same⟩
    · exact fun _ => refused _

theorem runApproved_ahead (numbered : Numbered start) (ahead : Ahead o1 setting start [] s)
    (row : RAppActionApproval) (name : String) (reason : Option String)
    (may : setting.mayDecide name row.requestedBy (some row.invokerId)) :
    Ensures (· = s) (runApproved o1 site setting.now row name reason)
      (fun _ => Ahead o1 setting start []) (Raising o1 setting start) := by
  unfold runApproved
  apply (refuseIfKilled_clear ahead _ _).bind
  intro _
  apply Ensures.of_fact
  intro clear
  apply (enforceRappLimit_same ahead _ _).bind
  intro _
  apply (enforceScope_same ahead _ _ _ _).bind
  intro _
  apply (enforceChangeLimits_same ahead _ _).bind
  intro _
  apply (Ensures.update _).bind
  intro _
  rw [row.asked] at may
  refine executeWriteWith_ahead numbered (autoRevert_reverts numbered)
    (ahead.unseen (·.putApproval _) rfl rfl) _ _ clear ?_
  rintro _ ⟨⟩
  exact ⟨name, rfl, may⟩

/-- A session that was rolled back after an exception; the board shows nothing new. -/
structure RolledBack (o1 : O1Clients σ) (setting : Setting) (start : Board)
    (s : Session Store (Wire σ)) : Prop where
  raising : Raising o1 setting start s
  jobs : s.working.jobs = s.committed.jobs
  kills : s.working.kills = s.committed.kills

theorem RolledBack.putApproval (back : RolledBack o1 setting start s) (row : RAppActionApproval) :
    RolledBack o1 setting start (withApproval s row) := by
  obtain ⟨b, lost, reached, jobs, sent⟩ := back.raising.kept
  exact ⟨⟨back.kills.trans back.raising.kills, b, lost, reached, jobs.trans back.jobs.symm, sent⟩,
    rfl, rfl⟩

theorem closeRefused_raising (approvalId : Nat) (name : String) (reason : Option String)
    (problem : Problem) :
    Ensures (RolledBack o1 setting start)
      (closeRefused site setting.now approvalId name reason problem : Db σ Unit)
      (fun _ => Raising o1 setting start) (Raising o1 setting start) := by
  apply Ensures.each
  intro s back
  unfold closeRefused approvalOr404
  rw [bind_assoc]
  apply Ensures.reads
  cases s.working.approval? approvalId with
  | none => exact fun _ same => same ▸ back.raising
  | some row =>
    simp only [pure_bind]
    apply Ensures.ite
    · exact fun _ _ same => same ▸ back.raising
    · rintro _ _ rfl
      exact (back.putApproval _).raising

theorem exceptProblem_ensures {α : Type} {pre raises after : Session Store (Wire σ) → Prop}
    {post : α → Session Store (Wire σ) → Prop} {x : Db σ α} {handle : Problem → Db σ α}
    (first : Ensures pre x post raises) (escapes : ∀ s, raises s → after s)
    (handled : ∀ problem, Ensures raises (handle problem) post after) :
    Ensures pre (exceptProblem x handle) post after := by
  intro s holds
  unfold exceptProblem
  cases ended : x s with
  | ok value t => exact first.ok holds ended
  | error exc t =>
    have raised := first.error holds ended
    cases exc with
    | problem problem => exact handled problem t raised
    | _ => exact escapes t raised

theorem approveAction_ahead (numbered : Numbered start) (ahead : Ahead o1 setting start [] s)
    (request : Request) (approvalId : Nat) (body : ApprovalDecisionRequest)
    (may : ∀ row name, s.working.approval? approvalId = some row →
      Deciding site request body.decidedBy row name →
        setting.mayDecide name row.requestedBy (some row.invokerId)) :
    Ensures (· = s) (approveAction o1 site setting.now request approvalId body)
      (fun _ => Ahead o1 setting start []) (Raising o1 setting start) := by
  unfold approveAction
  apply (decidable_found ahead.raising approvalId
    (fun _ row' _ _ => (putApproval_ahead ahead row').raising) _ _).bind
  intro found
  apply Ensures.of_fact
  rintro ⟨inStore, decidable⟩
  have may := may _ _ inStore decidable
  apply Ensures.ite
  · exact fun _ => raiseProblem_raising ahead _ _
  intro _
  apply Ensures.ite
  · rintro _ _ rfl
    exact putApproval_ahead ahead _
  intro _
  apply (Ensures.update _).bind
  intro _
  have runs : ∀ row : RAppActionApproval, row.requestedBy = found.1.requestedBy →
      row.invokerId = found.1.invokerId →
      Ensures (· = { s with working := s.working.putApproval row })
        (runApproved o1 site setting.now row found.2 body.reason)
        (fun _ => Ahead o1 setting start []) (Raising o1 setting start) := by
    intro row asker invoker
    refine runApproved_ahead numbered (ahead.unseen (·.putApproval row) rfl rfl) row _ _ ?_
    rw [asker, invoker]
    exact may
  have ran := runs (if found.1.requiredApprovals > 1 then { found.1 with
    approvals := found.1.approvals ++ [⟨found.2, setting.now, body.reason⟩] } else found.1)
    (by split <;> rfl) (by split <;> rfl)
  apply (exceptProblem_ensures ran (fun _ raised => raised) fun problem => ?_).bind
  · exact fun _ _ ahead => ahead
  · apply Ensures.each
    intro t raised
    apply Ensures.rollback.bind
    intro _
    apply ((closeRefused_raising approvalId found.2 body.reason problem).of_pre ?_).bind
    · exact fun _ _ raised => raised
    · rintro _ rfl
      exact ⟨⟨raised.kills, raised.kept⟩, rfl, rfl⟩

theorem rejectAction_ahead (ahead : Ahead o1 setting start others s) (request : Request)
    (approvalId : Nat) (body : ApprovalDecisionRequest) :
    Ensures (· = s) (rejectAction site setting.now request approvalId body : Db σ Unit)
      (fun _ => Ahead o1 setting start others) (Raising o1 setting start) := by
  unfold rejectAction
  apply (decidable_found ahead.raising approvalId
    (fun _ row' _ _ => (putApproval_ahead ahead row').raising) _ _).bind
  intro found
  apply Ensures.of_fact
  rintro - _ rfl
  exact putApproval_ahead ahead _

theorem lapseIfDue_ahead (ahead : Ahead o1 setting start others s) (row : RAppActionApproval) :
    Ensures (· = s) (lapseIfDue setting.now row : Db σ Bool)
      (fun _ => Ahead o1 setting start others) (Raising o1 setting start) := by
  unfold lapseIfDue
  cases lapsed setting.now row with
  | none => exact fun _ same => same ▸ ahead
  | some row' =>
    rintro _ rfl
    exact putApproval_ahead ahead row'

theorem readApproval_ahead (ahead : Ahead o1 setting start others s) (request : Request)
    (approvalId : Nat) :
    Ensures (· = s) (readApproval setting.now request approvalId : Db σ RAppActionApproval)
      (fun _ => Ahead o1 setting start others) (Raising o1 setting start) := by
  unfold readApproval
  apply (approvalOr404_found ahead.raising _).bind
  intro row
  apply Ensures.of_fact
  intro _
  apply Ensures.ite
  · exact fun _ => raiseProblem_raising ahead _ _
  intro _
  apply (lapseIfDue_ahead ahead row).bind
  intro _
  apply Ensures.each
  rintro t ahead'
  exact (approvalOr404_found ahead'.raising approvalId).weaken (fun _ same => same)
    (fun _ _ found => found.2 ▸ ahead') fun _ raised => raised

theorem lapseEach_ahead (ahead : Ahead o1 setting start others s) (ids : List Nat) :
    Ensures (· = s) (lapseEach setting.now ids : Db σ Unit)
      (fun _ => Ahead o1 setting start others) (Raising o1 setting start) := by
  induction ids generalizing s with
  | nil => exact fun _ same => same ▸ ahead
  | cons approvalId rest ih =>
    unfold lapseEach
    apply Ensures.reads
    cases s.working.approval? approvalId with
    | none => exact ih ahead
    | some row =>
      apply (lapseIfDue_ahead ahead row).bind
      intro _
      exact Ensures.each fun t ahead' => ih ahead'

end Routes

section Sending

variable {σ : Type} (o1 : O1Clients σ) (setting : Setting)

def SentBy (start : Board) (dispatch : Dispatch) : Prop :=
  ∃ b jr b', Moves o1 setting start b ∧ SetGoing setting b jr b' ∧ SentFor setting.now jr dispatch

theorem Moves.sentBy {o1 : O1Clients σ} {setting : Setting} {start b : Board}
    (moves : Moves o1 setting start b) :
    ∃ new, b.sent = start.sent ++ new ∧ ∀ dispatch ∈ new, SentBy o1 setting start dispatch := by
  induction moves with
  | refl => exact ⟨[], (List.append_nil _).symm, fun _ mem => absurd mem List.not_mem_nil⟩
  | tail earlier move ih =>
    obtain ⟨new, sent, all⟩ := ih
    cases move with
    | held | changed => exact ⟨new, sent, all⟩
    | @ran b' jr after more going advance =>
      refine ⟨new ++ more, ?_, fun dispatch mem => ?_⟩
      · rw [going.sent, sent, List.append_assoc]
      · rcases List.mem_append.mp mem with old | now
        · exact all dispatch old
        · exact ⟨_, jr, b', earlier, going, advance.sentFor dispatch now⟩

end Sending

namespace World

variable {σ : Type}

def Due (world : World σ) (jr : JobRows) : Prop :=
  jr ∈ world.store.jobs ∧ jr.job.status = .halted ∧ jr.job.haltedReason = some .wavePause ∧
    jr.job.nextWaveAt.any (· ≤ world.now)

/-- Who may decide: an outsider; on an rApp's request, whoever `_decidable` takes. -/
def MayDecide (world : World σ) (operation : Operation σ) (name requestedBy : String)
    (invokerId : Option String) : Prop :=
  match operation with
  | .approveAction request approvalId body =>
    ∃ row, world.store.approval? approvalId = some row ∧
      Deciding world.site request body.decidedBy row name ∧ requestedBy = row.requestedBy ∧
      invokerId = some row.invokerId
  | _ => Outsider world.site name requestedBy invokerId

def setting (world : World σ) (operation : Operation σ) : Setting where
  kills := world.store.kills
  now := world.now
  named jr := world.store.job? jr.job.jobId = some jr ∧
    ∃ request body, operation = .goOn request jr.job.jobId body
  forced jobId := ∃ request body, operation = .goOn request jobId body ∧ body.force = true
  listed jr := operation = .advanceDue ∧ world.Due jr
  mayDecide := world.MayDecide operation

def board (world : World σ) : Board := boardOf world.store world.wire

/-- What a request does to the board: moves, and dispatches whose record was lost. -/
def Leaves (o1 : O1Clients σ) (world : World σ) (operation : Operation σ) (store : Store)
    (wire : Wire σ) : Prop :=
  ∃ b lost, Moves o1 (world.setting operation) world.board b ∧ store.jobs = b.jobs ∧
    wire.sent = b.sent ++ lost ∧ b.fresh ≤ wire.fresh ∧
    ∀ dispatch ∈ lost, LostFrom o1 (world.setting operation) b dispatch ∧
      dispatch.job.jobId < wire.fresh

variable {o1 : O1Clients σ} {world : World σ} {operation : Operation σ}

theorem leaves_unchanged {store : Store} {wire : Wire σ} (jobs : store.jobs = world.store.jobs)
    (sent : wire.sent = world.wire.sent) (fresh : wire.fresh = world.wire.fresh) :
    world.Leaves o1 operation store wire :=
  ⟨world.board, [], .refl, jobs, by rw [sent]; exact (List.append_nil _).symm, fresh.ge,
    fun _ mem => absurd mem List.not_mem_nil⟩

theorem leaves_of_raising {s : Session Store (Wire σ)}
    (raising : Raising o1 (world.setting operation) world.board s) :
    world.Leaves o1 operation s.committed s.world := by
  obtain ⟨b, lost, moves, jobs, rest⟩ := raising.kept
  exact ⟨b, lost, moves, jobs.symm, rest⟩

theorem ahead_start : Ahead o1 (world.setting operation) world.board []
    ⟨world.store, world.store, world.wire⟩ :=
  ⟨⟨rfl, rfl⟩, ⟨world.board, [], ⟨.refl, rfl, (List.append_nil _).symm, Nat.le_refl _,
    fun _ mem => absurd mem List.not_mem_nil⟩, .refl⟩, fun _ mem => absurd mem List.not_mem_nil⟩

theorem leaves_of_ahead {x : Db σ Unit}
    (ends : Ensures (· = ⟨world.store, world.store, world.wire⟩) x
      (fun _ => Ahead o1 (world.setting operation) world.board [])
      (Raising o1 (world.setting operation) world.board)) :
    world.Leaves o1 operation (run x world.store world.wire).2.1
      (run x world.store world.wire).2.2 := by
  have leaves : Ensures (· = ⟨world.store, world.store, world.wire⟩) x
      (fun _ s => world.Leaves o1 operation s.committed s.world)
      (fun s => world.Leaves o1 operation s.committed s.world) :=
    ends.weaken (fun _ same => same) (fun _ _ ahead => leaves_of_raising ahead.raising)
      fun _ raising => leaves_of_raising raising
  exact leaves.run rfl

theorem leaves_of_same {x : Db σ Unit}
    (ends : Ensures (· = ⟨world.store, world.store, world.wire⟩) x
      (fun _ s => s.committed.jobs = world.store.jobs ∧ s.world = world.wire)
      (fun s => s.committed.jobs = world.store.jobs ∧ s.world = world.wire)) :
    world.Leaves o1 operation (run x world.store world.wire).2.1
      (run x world.store world.wire).2.2 := by
  have leaves : Ensures (· = ⟨world.store, world.store, world.wire⟩) x
      (fun _ s => world.Leaves o1 operation s.committed s.world)
      (fun s => world.Leaves o1 operation s.committed s.world) :=
    ends.weaken (fun _ same => same)
      (fun _ _ same => leaves_unchanged same.1 (by rw [same.2]) (by rw [same.2]))
      fun _ same => leaves_unchanged same.1 (by rw [same.2]) (by rw [same.2])
  exact leaves.run rfl

theorem killRapp_same (invokerId requestedBy : String) (reason : Option String) :
    Ensures (· = ⟨world.store, world.store, world.wire⟩)
      (killRapp world.now invokerId requestedBy reason : Db σ Unit)
      (fun _ s => s.committed.jobs = world.store.jobs ∧ s.world = world.wire)
      (fun s => s.committed.jobs = world.store.jobs ∧ s.world = world.wire) := by
  rintro _ rfl
  refine ⟨?_, rfl⟩
  dsimp only
  split <;> rfl

theorem liftRappKill_same (invokerId : String) :
    Ensures (· = ⟨world.store, world.store, world.wire⟩) (liftRappKill invokerId : Db σ Unit)
      (fun _ s => s.committed.jobs = world.store.jobs ∧ s.world = world.wire)
      (fun s => s.committed.jobs = world.store.jobs ∧ s.world = world.wire) := by
  apply Ensures.reads
  cases world.store.killOf invokerId with
  | none =>
    rintro _ rfl
    exact ⟨rfl, rfl⟩
  | some kill =>
    rintro _ rfl
    exact ⟨rfl, rfl⟩

theorem perform_leaves (numbered : Numbered world.board) (operation : Operation σ) :
    world.Leaves o1 operation (world.perform o1 operation).store
      (world.perform o1 operation).wire := by
  have starts : ∀ operation, Ahead o1 (world.setting operation) world.board []
    ⟨world.store, world.store, world.wire⟩ := fun _ => ahead_start
  cases operation with
  | write request body =>
    exact leaves_of_ahead (discard_ensures (write_ahead numbered (starts _) _ _))
  | goOn request jobId body =>
    refine leaves_of_ahead (discard_ensures (continue_ahead numbered (starts _) _ _ _
      (fun force => ⟨request, body, rfl, force⟩) fun jr found => ?_))
    obtain rfl := (job?_mem found).2
    exact ⟨found, request, body, rfl⟩
  | halt request jobId body =>
    exact leaves_of_ahead (discard_ensures (halt_ahead (starts _) _ _ _))
  | abort request jobId body =>
    exact leaves_of_ahead (discard_ensures (abort_ahead (starts _) _ _ _))
  | approve request jobId body =>
    exact leaves_of_ahead (discard_ensures (approve_ahead numbered (starts _) _ _ _
      fun _ _ _ outsider => outsider))
  | reject request jobId body =>
    exact leaves_of_ahead (discard_ensures (reject_ahead (starts _) _ _ _))
  | rollback request jobId body =>
    exact leaves_of_ahead (discard_ensures (rollback_ahead numbered (starts _) _ _ _))
  | kpiCheck request jobId body =>
    exact leaves_of_ahead (kpiCheck_ahead numbered (starts _) _ _ _)
  | advanceDue =>
    exact leaves_of_ahead (discard_ensures (advanceDue_ahead numbered (starts _)
      fun jr mem halted pause elapsed => ⟨rfl, mem, halted, pause, elapsed⟩))
  | approveAction request approvalId body =>
    exact leaves_of_ahead (approveAction_ahead numbered (starts _) _ _ _
      fun row name found decidable => ⟨row, found, decidable, rfl, rfl⟩)
  | rejectAction request approvalId body =>
    exact leaves_of_ahead (rejectAction_ahead (starts _) _ _ _)
  | readApproval request approvalId =>
    exact leaves_of_ahead (discard_ensures (readApproval_ahead (starts _) _ _))
  | lapseDue => exact leaves_of_ahead (Ensures.reads (lapseEach_ahead (starts _) _))
  | kill invokerId requestedBy reason => exact leaves_of_same (killRapp_same _ _ _)
  | liftKill invokerId => exact leaves_of_same (liftRappKill_same _)
  | surroundings site network elapsed => exact leaves_unchanged rfl rfl rfl

theorem perform_numbered (numbered : Numbered world.board) (operation : Operation σ) :
    Numbered (world.perform o1 operation).board := by
  obtain ⟨b, lost, moves, jobs, sent, fresh, all⟩ := @perform_leaves σ o1 world numbered operation
  have known := Moves.numbered moves numbered
  refine ⟨fun jr mem => ?_, fun dispatch mem => ?_, ?_⟩
  · rw [board, boardOf, jobs] at mem
    exact Nat.lt_of_lt_of_le (known.used jr mem) fresh
  · rw [board, boardOf, sent] at mem
    rcases List.mem_append.mp mem with kept | gone
    · exact Nat.lt_of_lt_of_le (known.sent dispatch kept) fresh
    · exact (all dispatch gone).2
  · rw [board, boardOf, jobs]
    exact known.distinct

def dispatched (before after : World σ) : List Dispatch :=
  after.wire.sent.drop before.wire.sent.length

theorem dispatched_sentBy (numbered : Numbered world.board) (operation : Operation σ) :
    ∀ dispatch ∈ dispatched world (world.perform o1 operation),
      SentBy o1 (world.setting operation) world.board dispatch := by
  obtain ⟨b, lost, moves, -, sent, -, all⟩ := @perform_leaves σ o1 world numbered operation
  obtain ⟨new, kept, known⟩ := Moves.sentBy moves
  have since : dispatched world (world.perform o1 operation) = new ++ lost := by
    rw [dispatched, sent, kept, List.append_assoc]
    exact List.drop_left
  intro dispatch mem
  rw [since] at mem
  rcases List.mem_append.mp mem with inNew | gone
  · exact known dispatch inNew
  · obtain ⟨⟨b', b'', jr, further, going, sentFor, -⟩, -⟩ := all dispatch gone
    exact ⟨b', jr, b'', moves.trans further, going, sentFor⟩

structure Initial (world : World σ) : Prop where
  store : world.store = {}
  sent : world.wire.sent = []

theorem Initial.numbered (initial : Initial world) : Numbered world.board := by
  have noJobs : world.board.jobs = [] := by rw [board, boardOf, initial.store]
  have noneSent : world.board.sent = [] := initial.sent
  refine ⟨?_, ?_, ?_⟩
  · rw [noJobs]
    exact fun _ mem => absurd mem List.not_mem_nil
  · rw [noneSent]
    exact fun _ mem => absurd mem List.not_mem_nil
  · rw [noJobs]
    exact List.nodup_nil

theorem step_numbered {world' : World σ} (numbered : Numbered world.board)
    (step : Step o1 world operation world') : Numbered world'.board := by
  rw [step]
  exact perform_numbered numbered operation

theorem run_all (start : World σ) (operations : List (Operation σ)) :
    Run (Step o1) start (stepsOf (perform o1) start operations)
      (operations.foldl (perform o1) start) := by
  have follows : ∀ s, ∀ label ∈ operations, Step o1 s label (perform o1 s label) :=
    fun _ _ _ => rfl
  exact run_follow follows

theorem run_then (start : World σ) (operations : List (Operation σ)) (operation : Operation σ) :
    Run (Step o1) start (stepsOf (perform o1) start operations ++
      [⟨operations.foldl (perform o1) start, operation,
        (operations.foldl (perform o1) start).perform o1 operation⟩])
      ((operations.foldl (perform o1) start).perform o1 operation) :=
  (run_all start operations).snoc rfl

def twoElements : Site where
  registry := {
    rows := [
      { managedElementRef := "gnb-1", entityType := "gNB", endpoint := some { adaptorUri := "http://gnb-1" } },
      { managedElementRef := "gnb-2", entityType := "gNB", endpoint := some { adaptorUri := "http://gnb-2" } }]
    keyed := List.nodup_cons.2 ⟨List.mem_singleton.not.2 (by decide), List.nodup_singleton _⟩ }

def applying : O1Clients Unit where
  sendEdit _ _ _ _ := ((), some { applied := true })
  sendEdits _ _ changes := ((), some (changes.map fun _ => { applied := true }))
  sendGet _ _ _ _ := .values [("power", .number "0")]
  monotonic _ := 0
  sleep _ _ := ()

def twoElementWorld : World Unit := { site := twoElements, wire := { network := () } }

theorem applying_answers : applying.Answers :=
  ⟨fun _ _ _ _ => rfl, fun _ _ changes => ⟨_, rfl, List.length_map _⟩⟩

/-- A staged job of `rapp-1` pauses after its first wave, and the pause elapses; meanwhile
other requests are made. -/
def duringPause (meanwhile : List (Operation Unit)) : List (Operation Unit) :=
  .write { role := .rapp, invoker := some "rapp-1" }
    { requestedBy := "rapp-1", accessScope := "cell"
      waveSize := some ⟨1, Nat.one_pos⟩, wavePauseSeconds := 60
      changes := [⟨"gnb-1", none, [("power", .number "1")], "merge"⟩,
        ⟨"gnb-2", none, [("power", .number "1")], "merge"⟩] } ::
    (meanwhile ++ [.surroundings twoElements () (seconds 60)])

def paused (meanwhile : List (Operation Unit)) : World Unit :=
  (duringPause meanwhile).foldl (perform applying) twoElementWorld

end World

end Smo.RanNfOam.ConfigJobs
