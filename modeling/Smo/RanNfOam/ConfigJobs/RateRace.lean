import Smo.RanNfOam.ConfigJobs.Moves

/-! The rate limit of an rApp under requests that overlap: each counts what is committed, and
its job is inserted later and committed once its waves have run. -/
namespace Smo.RanNfOam.ConfigJobs

open Transaction Runs

/-- The calls that are counted: a write, and the approval of what an rApp asked for. -/
inductive Counted where
  | write (request : Request) (body : WriteConfigRequest)
  | approved (row : RAppActionApproval)

namespace Counted

def invoker : Counted → Option String
  | write request _ => request.invokerId
  | approved row => some row.invokerId

def body : Counted → WriteConfigRequest
  | write _ body => body
  | approved row => row.request

def requestedBy : Counted → String
  | write _ body => body.requestedBy
  | approved row => row.requestedBy

def origin : Counted → Origin
  | write request _ =>
    { invoker := request.invokerId, park := true, requesterScope := request.scope }
  | approved row => { invoker := some row.invokerId, approval := some row }

theorem origin_invoker (call : Counted) : call.origin.invoker = call.invoker := by
  cases call <;> rfl

end Counted

structure Making where
  call : Counted
  job : Option JobRows := none

structure RateRace where
  now : Time
  store : Store := {}
  making : List Making := []
  fresh : Nat := 0

/-- What becomes of the jobs of a table: each stays the one it is, and undos, which have no
invoker, are added. -/
def Grown (jobs jobs' : List JobRows) : Prop :=
  ∃ kept added, jobs' = kept ++ added ∧
    List.Forall₂ (fun jr jr' : JobRows => SameJob jr.job jr'.job) jobs kept ∧
    ∀ jr ∈ added, jr.job.invokerId = none

theorem Grown.refl (jobs : List JobRows) : Grown jobs jobs :=
  ⟨jobs, [], (List.append_nil _).symm, List.forall₂_same.mpr fun jr _ => .refl jr.job,
    fun _ mem => absurd mem List.not_mem_nil⟩

namespace RateRace

def count (site : Site) (s : RateRace) (call : Counted) : Except Raised Unit × Store × Wire Unit :=
  run (enforceRappLimit site s.now call.invoker call.requestedBy) s.store { network := () }

inductive Act where
  | count (call : Counted)
  | insert
  | commit
  | leave
  | others
  | tick

/-- The steps of the calls, and what else happens to the table: a call may end without a job
at any time after its count, and other requests go on with the jobs that are committed. -/
inductive Step (site : Site) : RateRace → Act → RateRace → Prop
  | counts {s : RateRace} {call : Counted} (passes : (s.count site call).1 = .ok ()) :
      Step site s (.count call) { s with making := s.making ++ [⟨call, none⟩] }
  | refused {s : RateRace} {call : Counted} {raised : Raised}
      (refuses : (s.count site call).1 = .error raised) :
      Step site s (.count call) { s with store := (s.count site call).2.1 }
  | inserts {s : RateRace} {before after : List Making} {call : Counted}
      (inFlight : s.making = before ++ ⟨call, none⟩ :: after) :
      Step site s .insert { s with
        making := before ++ ⟨call, some (newJob s.now call.body call.origin s.fresh)⟩ :: after
        fresh := s.fresh + 1 }
  | commits {s : RateRace} {before after : List Making} {call : Counted} {jr : JobRows}
      {store : Store} (inFlight : s.making = before ++ ⟨call, some jr⟩ :: after)
      (grown : Grown (s.store.jobs ++ [jr]) store.jobs) :
      Step site s .commit { s with store, making := before ++ after }
  | leaves {s : RateRace} {before after : List Making} {making : Making}
      (inFlight : s.making = before ++ making :: after) :
      Step site s .leave { s with making := before ++ after }
  | others {s : RateRace} {store : Store} (grown : Grown s.store.jobs store.jobs) :
      Step site s .others { s with store }
  | ticks {s : RateRace} {now : Time} (later : s.now ≤ now) : Step site s .tick { s with now }

def recent (name : String) (at_ : Time) (jr : JobRows) : Bool :=
  jr.job.invokerId = some name && at_ ≤ jr.job.createdAt + hour

def inHour (name : String) (close : Time) (jr : JobRows) : Bool :=
  recent name close jr && jr.job.createdAt ≤ close

def created (s : RateRace) : List JobRows :=
  s.store.jobs ++ s.making.filterMap (·.job)

def awaited (name : String) (making : Making) : Bool :=
  making.job.isNone && making.call.invoker = some name

/-- The recent jobs of the invoker, and those that calls in flight have yet to insert. -/
def started (s : RateRace) (name : String) (at_ : Time) : Nat :=
  s.created.countP (recent name at_) + s.making.countP (awaited name)

def unseen (s : RateRace) (name : String) : Nat :=
  (s.making.filterMap (·.job)).countP (recent name s.now) + s.making.countP (awaited name)

/-- A call of the invoker that passes its count while others are in flight would also pass
it with theirs counted. -/
def Uncrowded (site : Site) (name : String) (most : Nat) (s : RateRace) (act : Act) : Prop :=
  ∀ call, act = .count call → call.invoker = some name → (s.count site call).1 = .ok () →
    s.unseen name ≠ 0 → s.started name s.now < most

variable {site : Site} {s s' start : RateRace} {act : Act} {name : String} {most : Nat}
  {trace : List (Runs.Step RateRace Act)} {limit : RAppLimit}

theorem enforceRappLimit_counts (call : Counted) (now : Time) (stored : Store)
    (wire : Wire Unit) :
    Ensures (· = ⟨stored, stored, wire⟩)
      (enforceRappLimit site now call.invoker call.requestedBy : Db Unit Unit)
      (fun _ t => t.committed.jobs = stored.jobs ∧
        ∀ limit most, limitOf site call.invoker = some limit →
          limit.maxConfigJobsPerHour = some most →
          stored.jobs.countP (recent limit.invokerId now) < most)
      (fun t => t.committed.jobs = stored.jobs) := by
  apply Ensures.reads
  cases limitOf site call.invoker with
  | none =>
    rintro _ rfl
    exact ⟨rfl, fun _ _ named => by cases named⟩
  | some limit =>
    dsimp only
    cases unlimited : limit.maxConfigJobsPerHour with
    | none =>
      rintro _ rfl
      refine ⟨rfl, ?_⟩
      rintro _ most ⟨⟩ limited
      rw [unlimited] at limited
      cases limited
    | some most =>
      apply Ensures.ite
      · rintro room _ rfl
        refine ⟨rfl, ?_⟩
        rintro _ _ ⟨⟩ limited
        rw [unlimited] at limited
        cases limited
        simp only [Bool.decide_and] at room
        exact room
      · rintro _ _ rfl
        rfl

theorem count_ok {call : Counted} (passes : (s.count site call).1 = .ok ())
    (named : limitOf site call.invoker = some limit)
    (limited : limit.maxConfigJobsPerHour = some most) :
    s.store.jobs.countP (recent limit.invokerId s.now) < most := by
  have ended := @enforceRappLimit_counts site call s.now s.store { network := () } _ rfl
  unfold count run at passes
  split at passes
  next ran =>
    rw [ran] at ended
    exact ended.2 limit most named limited
  next => cases passes

theorem count_jobs (call : Counted) : (s.count site call).2.1.jobs = s.store.jobs := by
  have ended := @enforceRappLimit_counts site call s.now s.store { network := () } _ rfl
  unfold count run
  split
  next ran =>
    rw [ran] at ended
    exact ended.1
  next ran =>
    rw [ran] at ended
    exact ended

def upcoming (name : String) (now : Time) (jr : JobRows) : Bool :=
  jr.job.invokerId = some name && now < jr.job.createdAt

/-- What is asked of a job for its invoker and its age, and so has the same answer later. -/
structure Lasting (p : JobRows → Bool) : Prop where
  same : ∀ jr jr' : JobRows, SameJob jr.job jr'.job → p jr' = p jr
  owned : ∀ jr : JobRows, jr.job.invokerId = none → p jr = false

theorem lasting_recent (name : String) (at_ : Time) : Lasting (recent name at_) := by
  constructor
  · intro jr jr' same
    rw [recent, recent, same.invokerId, same.createdAt]
  · intro jr free
    rw [recent, free]
    rfl

theorem lasting_inHour (name : String) (close : Time) : Lasting (inHour name close) := by
  constructor
  · intro jr jr' same
    rw [inHour, inHour, (lasting_recent name close).same jr jr' same, same.createdAt]
  · intro jr free
    rw [inHour, (lasting_recent name close).owned jr free]
    rfl

theorem lasting_upcoming (name : String) (now : Time) : Lasting (upcoming name now) := by
  constructor
  · intro jr jr' same
    rw [upcoming, upcoming, same.invokerId, same.createdAt]
  · intro jr free
    rw [upcoming, free]
    rfl

theorem grown_countP {jobs jobs' : List JobRows} (grown : Grown jobs jobs') {p : JobRows → Bool}
    (lasting : Lasting p) : jobs'.countP p = jobs.countP p := by
  obtain ⟨kept, added, rfl, stays, free⟩ := grown
  have noneAdded : added.countP p = 0 := by
    rw [List.countP_eq_zero]
    intro jr mem
    rw [lasting.owned jr (free jr mem)]
    exact Bool.false_ne_true
  rw [List.countP_append, noneAdded, Nat.add_zero]
  induction stays with
  | nil => rfl
  | cons first _ ih => rw [List.countP_cons, List.countP_cons, ih, lasting.same _ _ first]

theorem countP_flight (before after : List Making) (making : Making) (p : JobRows → Bool) :
    ((before ++ making :: after).filterMap (·.job)).countP p =
      (before.filterMap (·.job)).countP p + making.job.toList.countP p +
        (after.filterMap (·.job)).countP p := by
  cases h : making.job with
  | none => simp [h]
  | some jr =>
    simp only [List.filterMap_append, List.filterMap_cons, h, List.countP_append,
      List.countP_cons, Option.toList_some, List.countP_nil]
    omega

/-- No job is from the future; no hour, past or to come, has more than `most` jobs of the
invoker, the ones that calls in flight will insert included. -/
structure Within (name : String) (most : Nat) (s : RateRace) : Prop where
  past : s.created.countP (upcoming name s.now) = 0
  ahead : ∀ at_, s.now ≤ at_ → s.started name at_ ≤ most
  hours : ∀ close, s.created.countP (inHour name close) ≤ most

theorem inHour_recent (name : String) (close : Time) (jobs : List JobRows) :
    jobs.countP (inHour name close) ≤ jobs.countP (recent name close) := by
  refine List.countP_mono_left fun jr _ inside => ?_
  rw [inHour, Bool.and_eq_true] at inside
  exact inside.1

theorem recent_later (name : String) {at_ at' : Time} (later : at_ ≤ at')
    (jobs : List JobRows) : jobs.countP (recent name at') ≤ jobs.countP (recent name at_) := by
  refine List.countP_mono_left fun jr _ inside => ?_
  simp only [recent, Bool.and_eq_true, decide_eq_true_eq] at inside ⊢
  exact ⟨inside.1, later.trans inside.2⟩

theorem Within.fewer (within : Within name most s) (now : s'.now = s.now)
    (created : ∀ p, Lasting p → s'.created.countP p ≤ s.created.countP p)
    (awaits : s'.making.countP (awaited name) ≤ s.making.countP (awaited name)) :
    Within name most s' := by
  refine ⟨?_, fun at_ later => ?_, fun close => ?_⟩
  · rw [now]
    have none_ := within.past
    have fewer := created _ (lasting_upcoming name s.now)
    omega
  · rw [now] at later
    have most := within.ahead at_ later
    have fewer := created _ (lasting_recent name at_)
    unfold started at most ⊢
    omega
  · exact (created _ (lasting_inHour name close)).trans (within.hours close)

theorem Within.insert (within : Within name most s) {before after : List Making} {call : Counted}
    (inFlight : s.making = before ++ ⟨call, none⟩ :: after) :
    Within name most { s with
      making := before ++ ⟨call, some (newJob s.now call.body call.origin s.fresh)⟩ :: after
      fresh := s.fresh + 1 } := by
  have invoker : (newJob s.now call.body call.origin s.fresh).job.invokerId = call.invoker :=
    call.origin_invoker
  have createdAt : (newJob s.now call.body call.origin s.fresh).job.createdAt = s.now := rfl
  generalize newJob s.now call.body call.origin s.fresh = jr at invoker createdAt ⊢
  obtain ⟨past, ahead, hours⟩ := within
  unfold started at ahead
  unfold created at past ahead hours
  simp only [inFlight, List.countP_append, countP_flight, List.countP_cons, Option.toList_none,
    List.countP_nil] at past ahead hours
  have awaits : awaited name ⟨call, none⟩ = decide (call.invoker = some name) := rfl
  have settled : awaited name ⟨call, some jr⟩ = false := rfl
  have isRecent : ∀ at_, recent name at_ jr = true → call.invoker = some name := by
    intro at_ isRecent
    simp only [recent, Bool.and_eq_true, decide_eq_true_eq] at isRecent
    exact invoker.symm.trans isRecent.1
  have notUpcoming : upcoming name s.now jr = false := by
    simp [upcoming, createdAt]
  refine ⟨?_, fun at_ later => ?_, fun close => ?_⟩
  · simp only [created, List.countP_append, countP_flight, Option.toList_some,
      List.countP_singleton, notUpcoming, Bool.false_eq_true, if_false]
    omega
  · have known := ahead at_ later
    simp only [started, created, List.countP_append, countP_flight, Option.toList_some,
      List.countP_cons, List.countP_nil, settled, awaits, decide_eq_true_eq] at known ⊢
    have mine := isRecent at_
    by_cases isMine : call.invoker = some name
    · rw [if_pos isMine] at known
      split <;> simp <;> omega
    · have other : ¬recent name at_ jr = true := fun is => isMine (mine is)
      rw [if_neg isMine] at known
      rw [if_neg other]
      simp only [Bool.false_eq_true, if_false]
      omega
  · simp only [created, List.countP_append, countP_flight, Option.toList_some, List.countP_cons,
      List.countP_nil]
    have known := hours close
    by_cases inside : inHour name close jr = true
    · simp only [inHour, createdAt, Bool.and_eq_true, decide_eq_true_eq] at inside
      have room := ahead close inside.2
      have mine := isRecent close inside.1
      have fewer := inHour_recent name close
      have stored := fewer s.store.jobs
      have first := fewer (before.filterMap (·.job))
      have last := fewer (after.filterMap (·.job))
      rw [awaits, if_pos (decide_eq_true mine)] at room
      split <;> omega
    · rw [if_neg inside]
      omega

theorem Uncrowded.room (guard : s.Uncrowded site name most act) {call : Counted}
    (is : act = .count call) (mine : call.invoker = some name)
    (passes : (s.count site call).1 = .ok ()) (named : limitOf site (some name) = some limit)
    (limited : limit.maxConfigJobsPerHour = some most) : s.started name s.now < most := by
  by_cases alone : s.unseen name = 0
  · rw [← mine] at named
    have found := count_ok passes named limited
    have isName : limit.invokerId = name := by
      rw [mine] at named
      simpa using List.find?_some named
    rw [isName] at found
    unfold unseen at alone
    rw [started, created, List.countP_append]
    omega
  · exact guard call is mine passes alone

theorem Within.step (within : Within name most s) (guard : s.Uncrowded site name most act)
    (named : limitOf site (some name) = some limit)
    (limited : limit.maxConfigJobsPerHour = some most)
    (step : Step site s act s') : Within name most s' := by
  cases step with
  | @counts call passes =>
    have created : RateRace.created { s with making := s.making ++ [⟨call, none⟩] } = s.created := by
      simp [RateRace.created]
    refine ⟨?_, fun at_ later => ?_, ?_⟩
    · rw [created]
      exact within.past
    · have room := fun mine => guard.room rfl mine passes named limited
      have known := within.ahead at_ later
      have fewer := recent_later name later s.created
      simp only [started, created, List.countP_append, List.countP_singleton, awaited] at *
      by_cases mine : call.invoker = some name
      · have room := room mine
        simp [mine]
        omega
      · simp [mine]
        omega
    · rw [created]
      exact within.hours
  | @refused call raised refuses =>
    refine within.fewer rfl (fun p _ => ?_) (Nat.le_refl _)
    rw [created, created, count_jobs]
  | inserts inFlight => exact within.insert inFlight
  | @commits before after call jr store inFlight grown =>
    refine within.fewer rfl (fun p lasting => ?_) ?_
    · rw [created, created, inFlight]
      simp only [List.countP_append, grown_countP grown lasting, countP_flight]
      simp only [List.filterMap_append, List.countP_append, Option.toList_some,
        List.countP_singleton]
      omega
    · rw [inFlight]
      simp only [List.countP_append, List.countP_cons]
      omega
  | @leaves before after making inFlight =>
    refine within.fewer rfl (fun p lasting => ?_) ?_
    · rw [created, created, inFlight]
      simp only [List.countP_append, countP_flight]
      simp only [List.filterMap_append, List.countP_append]
      omega
    · rw [inFlight]
      simp only [List.countP_append, List.countP_cons]
      omega
  | others grown =>
    refine within.fewer rfl (fun p lasting => ?_) (Nat.le_refl _)
    rw [created, created, List.countP_append, List.countP_append, grown_countP grown lasting]
  | @ticks now later =>
    refine ⟨?_, fun at_ soon => within.ahead at_ (later.trans soon), within.hours⟩
    have none_ := within.past
    rw [List.countP_eq_zero] at none_ ⊢
    intro jr mem upcoming
    refine none_ jr mem ?_
    simp only [RateRace.upcoming, Bool.and_eq_true, decide_eq_true_eq] at upcoming ⊢
    exact ⟨upcoming.1, later.trans_lt upcoming.2⟩

/-- As long as no call of the invoker passes its count only because the calls in flight are
not counted, every hour has at most as many of its jobs as the limit. -/
theorem jobs_within_limit (empty : start.created = []) (none_ : start.making = [])
    (run : Run (Step site) start trace s) (named : limitOf site (some name) = some limit)
    (limited : limit.maxConfigJobsPerHour = some most)
    (guarded : ∀ t ∈ trace, t.before.Uncrowded site name most t.label) :
    ∀ close, s.created.countP (inHour name close) ≤ most := by
  have init : Within name most start := by
    refine ⟨?_, fun at_ _ => ?_, fun close => ?_⟩
    · rw [empty]
      rfl
    · rw [started, empty, none_]
      exact Nat.zero_le most
    · rw [empty]
      exact Nat.zero_le most
  have within := run.invariant_of_guarded (Within name most) (Uncrowded site name most) init
    (fun s act s' within guard step => within.step guard named limited step) guarded
  exact within.hours

theorem settle_first (site : Site) (name : String) {making : Making} {rest : List Making}
    (inFlight : s.making = making :: rest) : ∃ trace s',
    Run (Step site) s trace s' ∧ (∀ t ∈ trace, ∀ call, t.label ≠ .count call) ∧
      s'.making = rest ∧ s'.now = s.now ∧
      s'.store.jobs.countP (inHour name s.now) = s.store.jobs.countP (inHour name s.now) +
        making.job.toList.countP (inHour name s.now) + if awaited name making then 1 else 0 := by
  obtain ⟨call, job⟩ := making
  have commits : ∀ (s : RateRace) (jr : JobRows), s.making = ⟨call, some jr⟩ :: rest →
      Step site s .commit { s with
        store := { s.store with jobs := s.store.jobs ++ [jr] }, making := rest } :=
    fun s jr is => @Step.commits site s [] rest call jr _ is (Grown.refl _)
  cases job with
  | some jr =>
    refine ⟨_, _, Run.refl.snoc (commits s jr inFlight), fun t mem => ?_, rfl, rfl, ?_⟩
    · rw [List.mem_singleton.mp mem]
      rintro call ⟨⟩
    · simp [awaited]
  | none =>
    have inserted := @Step.inserts site s [] rest call inFlight
    have isNew : inHour name s.now (newJob s.now call.body call.origin s.fresh) =
        awaited name ⟨call, none⟩ := by
      have invoker : (newJob s.now call.body call.origin s.fresh).job.invokerId = call.invoker :=
        call.origin_invoker
      have createdAt : (newJob s.now call.body call.origin s.fresh).job.createdAt = s.now := rfl
      simp [inHour, recent, awaited, invoker, createdAt]
    generalize newJob s.now call.body call.origin s.fresh = jr at inserted isNew
    refine ⟨_, _, (Run.refl.snoc inserted).snoc (commits _ jr rfl), fun t mem => ?_, rfl, rfl, ?_⟩
    · rcases List.mem_append.mp mem with first | last
      · rw [List.mem_singleton.mp first]
        rintro call ⟨⟩
      · rw [List.mem_singleton.mp last]
        rintro call ⟨⟩
    · simp [isNew, List.countP_append, List.countP_singleton]

theorem settle (site : Site) (name : String) (s : RateRace) : ∃ trace s',
    Run (Step site) s trace s' ∧ (∀ t ∈ trace, ∀ call, t.label ≠ .count call) ∧
      s'.store.jobs.countP (inHour name s.now) =
        s.created.countP (inHour name s.now) + s.making.countP (awaited name) := by
  induction inFlight : s.making generalizing s with
  | nil =>
    refine ⟨[], s, .refl, fun t mem => absurd mem List.not_mem_nil, ?_⟩
    simp [created, inFlight]
  | cons making rest ih =>
    obtain ⟨first, s₁, run, counts, left, now, made⟩ := settle_first site name inFlight
    obtain ⟨later, s₂, goesOn, counts', made'⟩ := ih s₁ left
    refine ⟨first ++ later, s₂, run.append goesOn, fun t mem => ?_, ?_⟩
    · rcases List.mem_append.mp mem with inFirst | inLater
      · exact counts t inFirst
      · exact counts' t inLater
    · have flight := countP_flight [] rest making (inHour name s.now)
      rw [now] at made'
      rw [List.nil_append] at flight
      rw [made', created, created, inFlight, left, List.countP_append, List.countP_append, made,
        flight, List.countP_cons]
      simp only [List.filterMap_nil, List.countP_nil]
      omega

theorem crowded_exceeds (past : s.created.countP (upcoming name s.now) = 0) {call : Counted}
    (mine : call.invoker = some name) (passes : (s.count site call).1 = .ok ())
    (crowded : most ≤ s.started name s.now) : ∃ trace s',
    Run (Step site) s trace s' ∧ most < s'.store.jobs.countP (inHour name s.now) := by
  obtain ⟨trace, s', run, -, made⟩ :=
    settle site name { s with making := s.making ++ [⟨call, none⟩] }
  refine ⟨_, s', (Run.refl.snoc (.counts passes)).append run, ?_⟩
  have same : s.created.countP (inHour name s.now) = s.created.countP (recent name s.now) := by
    refine List.countP_congr fun jr mem => ?_
    have old := List.countP_eq_zero.mp past jr mem
    simp only [upcoming, inHour, Bool.and_eq_true, decide_eq_true_eq, not_and, Nat.not_lt] at old ⊢
    refine ⟨fun inside => inside.1, fun is => ⟨is, old ?_⟩⟩
    simp only [recent, Bool.and_eq_true, decide_eq_true_eq] at is
    exact is.1
  have created : RateRace.created { s with making := s.making ++ [⟨call, none⟩] } = s.created := by
    simp [RateRace.created]
  rw [made, created, same, List.countP_append, List.countP_singleton, awaited]
  unfold started at crowded
  simp [mine]
  omega

/-- `rapp-1` may start so many jobs in an hour, and writes to one element. -/
def limited (most : Nat) : Site where
  limits := [{ invokerId := "rapp-1", maxConfigJobsPerHour := some most, maxElementsPerJob := none }]

def oneWrite : Counted :=
  .write { role := .rapp, invoker := some "rapp-1" }
    { requestedBy := "rapp-1", accessScope := "cell"
      changes := [⟨"gnb-1", none, [("power", .number "1")], "merge"⟩] }

def counted (calls : Nat) : RateRace where
  now := 0
  making := List.replicate calls ⟨oneWrite, none⟩

/-- Two calls overlap where two jobs are allowed. -/
theorem two_within_limit : ∃ trace s, Run (Step (limited 2)) (counted 0) trace s ∧
    s.store.jobs.countP (inHour "rapp-1" 0) = 2 ∧
    ∀ close, s.created.countP (inHour "rapp-1" close) ≤ 2 := by
  have first : Step (limited 2) (counted 0) (.count oneWrite) (counted 1) := .counts rfl
  have second : Step (limited 2) (counted 1) (.count oneWrite) (counted 2) := .counts rfl
  obtain ⟨trace, s, goesOn, counts, made⟩ := settle (limited 2) "rapp-1" (counted 2)
  have run := ((Run.refl.snoc first).snoc second).append goesOn
  refine ⟨_, s, run, made.trans rfl, jobs_within_limit rfl rfl run rfl rfl fun t mem => ?_⟩
  rcases List.mem_append.mp mem with early | late
  · rcases List.mem_append.mp early with isFirst | isSecond
    · rw [List.mem_singleton.mp isFirst]
      exact fun _ _ _ _ _ => by decide
    · rw [List.mem_singleton.mp isSecond]
      exact fun _ _ _ _ _ => by decide
  · exact fun call is => absurd is (counts t late call)

/-- Two calls overlap where one job is allowed. -/
theorem two_exceed_limit : ∃ site start trace s limit close,
    RateRace.created start = [] ∧ start.making = [] ∧ Run (Step site) start trace s ∧
      limitOf site (some "rapp-1") = some limit ∧ limit.maxConfigJobsPerHour = some 1 ∧
      1 < s.store.jobs.countP (inHour "rapp-1" close) := by
  have first : Step (limited 1) (counted 0) (.count oneWrite) (counted 1) := .counts rfl
  have crowded : 1 ≤ (counted 1).started "rapp-1" (counted 1).now := by decide
  have passes : ((counted 1).count (limited 1) oneWrite).1 = .ok () := rfl
  have past : (counted 1).created.countP (upcoming "rapp-1" (counted 1).now) = 0 := rfl
  obtain ⟨trace, s, goesOn, exceeds⟩ := crowded_exceeds past rfl passes crowded
  exact ⟨limited 1, counted 0, _, s, _, _, rfl, rfl, (Run.refl.snoc first).append goesOn, rfl, rfl,
    exceeds⟩

end RateRace

section Requests

variable {σ : Type} {o1 : O1Clients σ} {setting : Setting} {b b' : Board}

end Requests

end Smo.RanNfOam.ConfigJobs
