import Smo.Lib.Runs
import Smo.Lib.Table

/-! The file subscriptions of the PM files (`app/main.py`) under requests that overlap: a report numbers
its notices by the subscriptions' rows, which have no version, and reads them twice. -/
namespace Smo.RanNfOam.FileSubscriptions

inductive FileDataType
  | performance
  | trace
  | analytics
  | proprietary
  deriving DecidableEq

structure FileSubscription where
  subscriptionId : Nat
  consumerReference : String
  fileDataType : Option FileDataType
  sequenceNo : Nat := 0
  deriving DecidableEq

/-- `sub.file_data_type in (None, body.fileDataType)`. -/
def FileSubscription.wants (sub : FileSubscription) (type : FileDataType) : Bool :=
  sub.fileDataType.all (· = type)

structure PMFile where
  fileId : Nat
  fileDataType : FileDataType
  deriving DecidableEq

/-- A row of the outbox with a `notifyFileReady`. -/
structure Notice where
  destination : String
  notificationId : Nat
  sequenceNo : Nat
  subscriptionId : Nat
  fileId : Nat
  deriving DecidableEq

/-- What a SELECT of the subscriptions gives a report of each that wants the file: its consumer, and
the number that follows the one read. -/
structure Target where
  subscriptionId : Nat
  consumer : String
  sequenceNo : Nat
  deriving DecidableEq

def FileSubscription.target (sub : FileSubscription) : Target where
  subscriptionId := sub.subscriptionId
  consumer := sub.consumerReference
  sequenceNo := sub.sequenceNo + 1

inductive Stage
  | flushed (file : PMFile)
  | targeted (file : PMFile) (targets : List Target)
  | numbered (file : PMFile) (targets writes : List Target)
  | refused
  | stale
  | committed

structure State where
  subscriptions : List FileSubscription := []
  nextId : Nat := 0
  files : List PMFile := []
  notices : List Notice := []
  reports : List Stage := []

/-- `accepted`: the element's FILE service and the PM subscription for the counter are there, as one
report finds; `safe`: the destinations that the SSRF guard lets pass. -/
inductive Act
  | subscribe (consumerReference : String) (fileDataType : Option FileDataType) (permitted : Bool)
  | unsubscribe (subscriptionId : Nat) (permitted : Bool)
  | report (fileDataType : FileDataType) (accepted : Bool)
  | target (i : Nat)
  | number (i : Nat)
  | commit (i : Nat) (safe : String → Bool)

/-- `enqueue` of one notice. -/
def enqueue (safe : String → Bool) (file : PMFile) (target : Target) : Option Notice :=
  if safe target.consumer then
    some ⟨target.consumer, target.sequenceNo, target.sequenceNo, target.subscriptionId, file.fileId⟩
  else none

/-- The UPDATE of the subscriptions that a report has numbered; a row that is gone is not there. -/
def updated (subscriptions : List FileSubscription) (writes : List Target) :
    List FileSubscription :=
  subscriptions.map fun sub =>
    match writes.find? (·.subscriptionId = sub.subscriptionId) with
    | none => sub
    | some write => { sub with sequenceNo := write.sequenceNo }

namespace State

variable (saneMultiRowcount : Bool) (s : State)

def targets (type : FileDataType) : List Target :=
  (s.subscriptions.filter (·.wants type)).map (·.target)

def at_ (i : Nat) (stage : Stage) : State := { s with reports := s.reports.set i stage }

/-- The flush raises when a row that it updates is gone: for one row always, for several where the
driver counts the rows of them all. -/
def raisesStale (writes : List Target) : Bool :=
  (saneMultiRowcount || writes.length = 1) &&
    writes.any fun write => write.subscriptionId ∉ s.subscriptions.map (·.subscriptionId)

def store (safe : String → Bool) (file : PMFile) (targets writes : List Target) : State :=
  { s with
    files := s.files ++ [file]
    subscriptions := updated s.subscriptions writes
    notices := s.notices ++ targets.filterMap (enqueue safe file) }

def act : Act → Option State
  | .subscribe consumerReference fileDataType permitted =>
    if permitted then
      some { s with
        subscriptions := s.subscriptions ++ [⟨s.nextId, consumerReference, fileDataType, 0⟩]
        nextId := s.nextId + 1 }
    else some s
  | .unsubscribe subscriptionId permitted =>
    if permitted then
      some { s with subscriptions := s.subscriptions.filter (·.subscriptionId ≠ subscriptionId) }
    else some s
  | .report fileDataType accepted =>
    let stage := if accepted then Stage.flushed ⟨s.reports.length, fileDataType⟩ else .refused
    some { s with reports := s.reports ++ [stage] }
  | .target i =>
    match s.reports[i]? with
    | some (.flushed file) => some (s.at_ i (.targeted file (s.targets file.fileDataType)))
    | _ => none
  | .number i =>
    match s.reports[i]? with
    | some (.targeted file targets) =>
      some (s.at_ i (.numbered file targets (s.targets file.fileDataType)))
    | _ => none
  | .commit i safe =>
    match s.reports[i]? with
    | some (.numbered file targets writes) =>
      if s.raisesStale saneMultiRowcount writes then some (s.at_ i .stale)
      else some ((s.store safe file targets writes).at_ i .committed)
    | _ => none

def Step (s : State) (a : Act) (s' : State) : Prop := s.act saneMultiRowcount a = some s'

def noticesOf (subscriptionId : Nat) : List Notice :=
  s.notices.filter (·.subscriptionId = subscriptionId)

def stores : Act → Option PMFile
  | .commit i _ =>
    match s.reports[i]? with
    | some (.numbered file _ writes) =>
      if s.raisesStale saneMultiRowcount writes then none else some file
    | _ => none
  | _ => none

/-- A report commits on numbers that are outdated, or for a consumer that is not safe. -/
def lapses : Act → Bool
  | .commit i safe =>
    match s.reports[i]? with
    | some (.numbered file targets writes) =>
      !s.raisesStale saneMultiRowcount writes &&
        !(targets = s.targets file.fileDataType && (targets.all fun target => safe target.consumer) &&
          updated s.subscriptions writes = updated s.subscriptions (s.targets file.fileDataType))
    | _ => false
  | _ => false

end State

def wanted (saneMultiRowcount : Bool) (subscriptionId : Nat) (t : Runs.Step State Act) :
    List PMFile :=
  match t.before.stores saneMultiRowcount t.label with
  | none => []
  | some file =>
    if t.before.subscriptions.any fun sub =>
      sub.subscriptionId = subscriptionId && sub.wants file.fileDataType then [file] else []

/-- The files that were stored after a subscription was made and before it was deleted, and that it
wants. -/
def matching (saneMultiRowcount : Bool) (trace : List (Runs.Step State Act)) (subscriptionId : Nat) :
    List PMFile :=
  trace.flatMap (wanted saneMultiRowcount subscriptionId)

/-- The notices of a subscription are numbered without gap, one for each file that it wants. -/
structure Numbered (saneMultiRowcount : Bool) (trace : List (Runs.Step State Act)) (s : State) :
    Prop where
  numbers : ∀ id, (s.noticesOf id).map (·.sequenceNo) =
    List.range' 1 (matching saneMultiRowcount trace id).length
  files : ∀ id, (s.noticesOf id).map (·.fileId) =
    (matching saneMultiRowcount trace id).map (·.fileId)
  committed : ∀ notice ∈ s.notices, notice.fileId ∈ s.files.map (·.fileId)

section Runs

variable {sane : Bool} {s s' : State} {a : Act} {trace : List (Runs.Step State Act)} {i id : Nat}
  {type : FileDataType} {file : PMFile} {safe : String → Bool}

def State.subscriber (s : State) (type : FileDataType) (id : Nat) : Option FileSubscription :=
  (Table.get FileSubscription.subscriptionId s.subscriptions id).filter (·.wants type)

structure Sound (sane : Bool) (trace : List (Runs.Step State Act)) (s : State) : Prop where
  keyed : (s.subscriptions.map (·.subscriptionId)).Nodup
  below : ∀ sub ∈ s.subscriptions, sub.subscriptionId < s.nextId
  fresh : ∀ id, s.nextId ≤ id → matching sane trace id = []
  count : ∀ sub ∈ s.subscriptions,
    sub.sequenceNo = (matching sane trace sub.subscriptionId).length
  numbered : Numbered sane trace s

theorem filter_subscriber (keyed : (s.subscriptions.map (·.subscriptionId)).Nodup) :
    (s.targets type).filter (·.subscriptionId = id) =
      ((s.subscriber type id).map (·.target)).toList := by
  unfold State.targets State.subscriber
  rw [List.filter_map, List.filter_filter]
  have swap : (fun sub : FileSubscription =>
      ((fun t : Target => decide (t.subscriptionId = id)) ∘ (·.target)) sub && sub.wants type) =
        fun sub => sub.wants type && decide (sub.subscriptionId = id) := by
    funext sub
    exact Bool.and_comm _ _
  rw [swap, ← List.filter_filter, Table.filter_key keyed]
  cases Table.get FileSubscription.subscriptionId s.subscriptions id with
  | none => rfl
  | some sub => cases wants : sub.wants type <;> simp [Option.filter, wants]

theorem find_subscriber (keyed : (s.subscriptions.map (·.subscriptionId)).Nodup) :
    (s.targets type).find? (·.subscriptionId = id) = (s.subscriber type id).map (·.target) := by
  rw [← List.head?_filter, filter_subscriber keyed]
  cases s.subscriber type id <;> rfl

theorem wanted_eq (keyed : (s.subscriptions.map (·.subscriptionId)).Nodup)
    (stores : s.stores sane a = some file) :
    wanted sane id ⟨s, a, s'⟩ = ((s.subscriber file.fileDataType id).map fun _ => file).toList := by
  unfold wanted
  rw [stores]
  dsimp only
  rw [← List.any_filter, Table.filter_key keyed, State.subscriber]
  cases Table.get FileSubscription.subscriptionId s.subscriptions id with
  | none => rfl
  | some sub => cases wants : sub.wants file.fileDataType <;> simp [Option.filter, wants]

theorem wanted_none (stores : s.stores sane a = none) : wanted sane id ⟨s, a, s'⟩ = [] := by
  unfold wanted
  rw [stores]

theorem matching_snoc (t : Runs.Step State Act) :
    matching sane (trace ++ [t]) id = matching sane trace id ++ wanted sane id t := by
  simp [matching]

theorem filter_notices (keyed : (s.subscriptions.map (·.subscriptionId)).Nodup)
    (pass : (s.targets file.fileDataType).all (fun target => safe target.consumer) = true) :
    ((s.targets file.fileDataType).filterMap (enqueue safe file)).filter (·.subscriptionId = id) =
      ((s.subscriber file.fileDataType id).map fun sub =>
        ⟨sub.consumerReference, sub.sequenceNo + 1, sub.sequenceNo + 1, sub.subscriptionId,
          file.fileId⟩).toList := by
  have all : (s.targets file.fileDataType).filterMap (enqueue safe file) =
      (s.targets file.fileDataType).map fun target =>
        ⟨target.consumer, target.sequenceNo, target.sequenceNo, target.subscriptionId, file.fileId⟩ := by
    rw [← List.filterMap_eq_map]
    refine List.filterMap_congr fun target mem => ?_
    exact if_pos (List.all_eq_true.mp pass target mem)
  rw [all, List.filter_map]
  have same : (s.targets file.fileDataType).filter (·.subscriptionId = id) =
      ((s.subscriber file.fileDataType id).map (·.target)).toList := filter_subscriber keyed
  change List.map _ ((s.targets file.fileDataType).filter (·.subscriptionId = id)) = _
  rw [same]
  cases s.subscriber file.fileDataType id <;> rfl

theorem noticesOf_store (keyed : (s.subscriptions.map (·.subscriptionId)).Nodup)
    (pass : (s.targets file.fileDataType).all (fun target => safe target.consumer) = true)
    (writes : List Target) :
    (s.store safe file (s.targets file.fileDataType) writes).noticesOf id = s.noticesOf id ++
      ((s.subscriber file.fileDataType id).map fun sub =>
        ⟨sub.consumerReference, sub.sequenceNo + 1, sub.sequenceNo + 1, sub.subscriptionId,
          file.fileId⟩).toList := by
  rw [← filter_notices keyed pass]
  exact List.filter_append _ _

theorem subscriber_of_mem (keyed : (s.subscriptions.map (·.subscriptionId)).Nodup)
    {sub : FileSubscription} (mem : sub ∈ s.subscriptions) :
    s.subscriber type sub.subscriptionId = if sub.wants type then some sub else none := by
  unfold State.subscriber
  rw [Table.get_of_mem keyed mem, Option.filter_some]

theorem ids_updated (writes : List Target) : (updated s.subscriptions writes).map (·.subscriptionId) =
    s.subscriptions.map (·.subscriptionId) := by
  unfold updated
  rw [List.map_map]
  refine List.map_congr_left fun sub _ => ?_
  simp only [Function.comp]
  split <;> rfl

theorem mem_updated (keyed : (s.subscriptions.map (·.subscriptionId)).Nodup)
    {now : FileSubscription} (mem : now ∈ updated s.subscriptions (s.targets type)) :
    ∃ sub ∈ s.subscriptions, now.subscriptionId = sub.subscriptionId ∧
      now.sequenceNo = sub.sequenceNo + (s.subscriber type sub.subscriptionId).toList.length := by
  obtain ⟨sub, there, rfl⟩ := List.mem_map.mp mem
  refine ⟨sub, there, ?_, ?_⟩
  · split <;> rfl
  · rw [find_subscriber keyed, subscriber_of_mem keyed there]
    cases sub.wants type <;> rfl

theorem Sound.commits (sound : Sound sane trace s) (stores : s.stores sane a = some file)
    (pass : (s.targets file.fileDataType).all (fun target => safe target.consumer) = true) :
    Sound sane (trace ++ [⟨s, a, s'⟩])
      (s.store safe file (s.targets file.fileDataType) (s.targets file.fileDataType)) := by
  have keyed := sound.keyed
  have next : ∀ id, matching sane (trace ++ [⟨s, a, s'⟩]) id = matching sane trace id ++
      ((s.subscriber file.fileDataType id).map fun _ => file).toList := by
    intro id
    rw [matching_snoc, wanted_eq keyed stores]
  have counted : ∀ id sub, s.subscriber file.fileDataType id = some sub →
      sub.sequenceNo = (matching sane trace id).length := by
    intro id sub is
    obtain ⟨found, -⟩ := Option.filter_eq_some_iff.mp is
    rw [← Table.key_of_get found]
    exact sound.count sub (Table.mem_of_get found)
  refine ⟨?_, fun now mem => ?_, fun id late => ?_, fun now mem => ?_, fun id => ?_, fun id => ?_,
    fun notice mem => ?_⟩
  · exact (ids_updated _).symm ▸ keyed
  · obtain ⟨sub, there, same, -⟩ := mem_updated keyed mem
    exact same ▸ sound.below sub there
  · rw [next, sound.fresh id late]
    cases is : s.subscriber file.fileDataType id with
    | none => rfl
    | some sub =>
      obtain ⟨found, -⟩ := Option.filter_eq_some_iff.mp is
      have below := sound.below sub (Table.mem_of_get found)
      rw [Table.key_of_get found] at below
      exact absurd below (Nat.not_lt.mpr late)
  · obtain ⟨sub, there, same, counts⟩ := mem_updated keyed mem
    rw [counts, same, next, List.length_append, sound.count sub there]
    cases s.subscriber file.fileDataType sub.subscriptionId <;> rfl
  · rw [noticesOf_store keyed pass, next, List.map_append, List.length_append, sound.numbered.numbers]
    cases is : s.subscriber file.fileDataType id with
    | none => simp
    | some sub =>
      simp only [Option.map_some, Option.toList_some, List.length_singleton, List.map_cons,
        List.map_nil, List.range'_1_concat, counted id sub is, Nat.add_comm 1]
  · rw [noticesOf_store keyed pass, next, List.map_append, List.map_append, sound.numbered.files]
    cases s.subscriber file.fileDataType id <;> rfl
  · rw [State.store, List.map_append, List.mem_append]
    rcases List.mem_append.mp mem with before | new
    · exact .inl (sound.numbered.committed notice before)
    · obtain ⟨target, -, is⟩ := List.mem_filterMap.mp new
      unfold enqueue at is
      split at is <;> cases is
      exact .inr (List.mem_singleton_self _)

theorem Sound.quiet (sound : Sound sane trace s) (stores : s.stores sane a = none)
    (files : s'.files = s.files) (notices : s'.notices = s.notices)
    (keyed : (s'.subscriptions.map (·.subscriptionId)).Nodup) (later : s.nextId ≤ s'.nextId)
    (subscriptions : ∀ sub ∈ s'.subscriptions, sub ∈ s.subscriptions ∨
      s.nextId = sub.subscriptionId ∧ sub.subscriptionId < s'.nextId ∧ sub.sequenceNo = 0) :
    Sound sane (trace ++ [⟨s, a, s'⟩]) s' := by
  have next : ∀ id, matching sane (trace ++ [⟨s, a, s'⟩]) id = matching sane trace id := by
    intro id
    rw [matching_snoc, wanted_none stores, List.append_nil]
  have same : ∀ id, s'.noticesOf id = s.noticesOf id := by
    intro id
    rw [State.noticesOf, notices]
    rfl
  refine ⟨keyed, fun sub mem => ?_, fun id late => ?_, fun sub mem => ?_, fun id => ?_, fun id => ?_,
    fun notice mem => ?_⟩
  · rcases subscriptions sub mem with was | ⟨-, below, -⟩
    · exact Nat.lt_of_lt_of_le (sound.below sub was) later
    · exact below
  · rw [next, sound.fresh id (Nat.le_trans later late)]
  · rw [next]
    rcases subscriptions sub mem with was | ⟨new, -, none⟩
    · exact sound.count sub was
    · rw [none, sound.fresh _ (Nat.le_of_eq new)]
      rfl
  · rw [next, same, sound.numbered.numbers]
  · rw [next, same, sound.numbered.files]
  · rw [files]
    exact sound.numbered.committed notice (notices ▸ mem)

theorem Sound.act (sound : Sound sane trace s) (careful : s.lapses sane a = false)
    (step : State.Step sane s a s') : Sound sane (trace ++ [⟨s, a, s'⟩]) s' := by
  have same : s.stores sane a = none → s'.subscriptions = s.subscriptions →
      s'.nextId = s.nextId → s'.files = s.files → s'.notices = s.notices →
        Sound sane (trace ++ [⟨s, a, s'⟩]) s' := by
    intro stores subscriptions nextId files notices
    refine sound.quiet stores files notices (subscriptions ▸ sound.keyed) (Nat.le_of_eq nextId.symm) ?_
    exact fun sub mem => .inl (subscriptions ▸ mem)
  unfold State.Step State.act at step
  cases a with
  | subscribe consumerReference fileDataType permitted =>
    cases permitted with
    | false =>
      cases step
      exact same rfl rfl rfl rfl rfl
    | true =>
      cases step
      refine sound.quiet rfl rfl rfl ?_ (Nat.le_succ _) fun sub mem => ?_
      · rw [List.map_append, List.nodup_append]
        refine ⟨sound.keyed, List.nodup_singleton _, fun id mem other is => ?_⟩
        obtain ⟨sub, there, rfl⟩ := List.mem_map.mp mem
        obtain rfl := List.mem_singleton.mp is
        exact Nat.ne_of_lt (sound.below sub there)
      · rcases List.mem_append.mp mem with was | new
        · exact .inl was
        · obtain rfl := List.mem_singleton.mp new
          exact .inr ⟨rfl, Nat.lt_succ_self _, rfl⟩
  | unsubscribe subscriptionId permitted =>
    cases permitted with
    | false =>
      cases step
      exact same rfl rfl rfl rfl rfl
    | true =>
      cases step
      refine sound.quiet rfl rfl rfl ?_ (Nat.le_refl _) fun sub mem => ?_
      · exact sound.keyed.sublist (List.filter_sublist.map _)
      · exact .inl (List.mem_of_mem_filter mem)
  | report fileDataType accepted =>
    cases step
    exact same rfl rfl rfl rfl rfl
  | target i =>
    simp only at step
    split at step <;> cases step
    exact same rfl rfl rfl rfl rfl
  | number i =>
    simp only at step
    split at step <;> cases step
    exact same rfl rfl rfl rfl rfl
  | commit i safe =>
    simp only at step
    split at step
    · next file targets writes is =>
      split at step <;> cases step
      · next stale =>
        have stores : s.stores sane (.commit i safe) = none := by simp [State.stores, is, stale]
        exact same stores rfl rfl rfl rfl
      · next counts =>
        have stores : s.stores sane (.commit i safe) = some file := by
          simp [State.stores, is, counts]
        have reads : (targets = s.targets file.fileDataType ∧
            ∀ target ∈ targets, safe target.consumer = true) ∧
              updated s.subscriptions writes =
                updated s.subscriptions (s.targets file.fileDataType) := by
          simpa [State.lapses, is, counts] using careful
        obtain ⟨⟨rfl, pass⟩, counted⟩ := reads
        rw [State.store, counted]
        have done : Sound sane (trace ++ [⟨s, _, (s.store safe file (s.targets file.fileDataType)
            (s.targets file.fileDataType)).at_ i .committed⟩]) (s.store safe file
              (s.targets file.fileDataType) (s.targets file.fileDataType)) :=
          sound.commits stores (List.all_eq_true.mpr pass)
        exact ⟨done.keyed, done.below, done.fresh, done.count, done.numbered.numbers,
          done.numbered.files, done.numbered.committed⟩
    · cases step

end Runs

/-- The notices of every subscription, there or deleted, are numbered without gap in a run in which no
report commits on numbers that are outdated. -/
theorem notices_numbered {sane : Bool} {trace : List (Runs.Step State Act)} {s : State}
    (run : Runs.Run (State.Step sane) {} trace s)
    (careful : ∀ t ∈ trace, t.before.lapses sane t.label = false) : Numbered sane trace s := by
  have start : Sound sane [] {} := by
    refine ⟨List.nodup_nil, fun _ mem => ?_, fun _ _ => rfl, fun _ mem => ?_, fun _ => rfl,
      fun _ => rfl, fun _ mem => ?_⟩ <;> cases mem
  have sound : Sound sane trace s := by
    refine run.invariant_of_guarded_history (Sound sane) (fun _ s a => s.lapses sane a = false) start
      (fun _ _ _ _ sound careful step => sound.act careful step) ?_
    rintro earlier t later rfl
    exact careful t (by simp)
  exact sound.numbered

section Sample

def everywhere (_ : String) : Bool := true

def reported (i : Nat) : List Act := [.target i, .number i, .commit i everywhere]

def inTurn : List Act :=
  [.report .performance true] ++ reported 0 ++
    [.subscribe "http://rapp/files" none true, .report .trace true, .report .performance true] ++
      reported 1 ++ reported 2

theorem inTurn_numbered :
    Numbered false (Runs.stepsOf (Runs.nextOf (State.act false)) {} inTurn)
        (inTurn.foldl (Runs.nextOf (State.act false)) {}) ∧
      ((inTurn.foldl (Runs.nextOf (State.act false)) {}).noticesOf 0).map (·.sequenceNo) = [1, 2] :=
  ⟨notices_numbered (Runs.run_enabled (by decide +kernel)) (by decide +kernel), by decide +kernel⟩

def atOnce : List Act :=
  [.subscribe "http://rapp/files" none true, .report .performance true, .report .performance true,
    .target 0, .number 0, .target 1, .number 1, .commit 0 everywhere, .commit 1 everywhere]

theorem number_twice : ¬ ∀ (sane : Bool) (trace : List (Runs.Step State Act)) (s : State),
    Runs.Run (State.Step sane) {} trace s → Numbered sane trace s := by
  intro always
  have run : Runs.Run (State.Step false) {} (Runs.stepsOf (Runs.nextOf (State.act false)) {} atOnce)
      (atOnce.foldl (Runs.nextOf (State.act false)) {}) := Runs.run_enabled (by decide +kernel)
  have numbers := (always _ _ _ run).numbers 0
  have twice : ((atOnce.foldl (Runs.nextOf (State.act false)) {}).noticesOf 0).map (·.sequenceNo) ≠
      List.range' 1 (matching false (Runs.stepsOf (Runs.nextOf (State.act false)) {} atOnce) 0).length := by
    decide +kernel
  exact twice numbers

end Sample

end Smo.RanNfOam.FileSubscriptions
