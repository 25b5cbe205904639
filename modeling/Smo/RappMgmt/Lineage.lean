import Smo.RappMgmt.History

/-! One lineage of instances as an undo stack: an upgrade pushes what was running, and a rollback
returns to what is on top and pops it. The linked list of retired instances, with the marks of the
rollbacks, refines it. -/
namespace Smo.RappMgmt

structure Snapshot where
  packageId : PackageId
  settings : Settings

def Snapshot.configured (snapshot : Snapshot) (config : Json.Value) : Snapshot :=
  { snapshot with settings := { snapshot.settings with configuration := some config } }

/-- A pending upgrade or rollback: what its replacement was made with, and the configuration set on
that since. -/
structure Attempt where
  id : InstanceId
  base : Snapshot
  undoes : Bool
  edit : Option Json.Value := none

def Attempt.snapshot (attempt : Attempt) : Snapshot :=
  attempt.edit.elim attempt.base attempt.base.configured

structure Succession where
  old : InstanceId
  new : InstanceId
  kind : Kind
  retired : Snapshot

structure Lineage where
  current : InstanceId
  running : Snapshot
  /-- Newest first. -/
  commits : List Succession := []
  stack : List Snapshot := []
  attempt : Option Attempt := none

inductive Event
  | configure (id : InstanceId) (config : Json.Value)
  | upgrade (old new : InstanceId) (packageId : PackageId)
  | rollback (old new : InstanceId)
  | abandon (old : InstanceId)
  | commit (old : InstanceId)

namespace Lineage

def initial (id : InstanceId) (snapshot : Snapshot) : Lineage := { current := id, running := snapshot }

def ids (l : Lineage) : List InstanceId := l.current :: l.commits.map (·.old)

def committed (l : Lineage) (attempt : Attempt) : Lineage where
  current := attempt.id
  running := attempt.snapshot
  commits := ⟨l.current, attempt.id, if attempt.undoes then .rollback else .upgrade, l.running⟩ :: l.commits
  stack := if attempt.undoes then l.stack.tail else l.running :: l.stack

def next (l : Lineage) : Event → Option Lineage
  | .configure id config =>
    if id = l.current then some { l with running := l.running.configured config }
    else
      match l.attempt with
      | some attempt =>
        if id = attempt.id then some { l with attempt := some { attempt with edit := some config } }
        else none
      | none => none
  | .upgrade old new packageId =>
    if old = l.current ∧ l.attempt.isNone then
      some { l with attempt := some ⟨new, ⟨packageId, l.running.settings⟩, false, none⟩ }
    else none
  | .rollback old new =>
    match l.attempt, l.stack with
    | none, top :: _ =>
      if old = l.current then some { l with attempt := some ⟨new, top, true, none⟩ } else none
    | _, _ => none
  | .abandon old =>
    if old = l.current ∧ l.attempt.isSome then some { l with attempt := none } else none
  | .commit old =>
    match l.attempt with
    | some attempt => if old = l.current then some (l.committed attempt) else none
    | none => none

def run (l : Lineage) (events : List Event) : Option Lineage := events.foldlM next l

def Valid (l : Lineage) : Prop :=
  ∀ attempt, l.attempt = some attempt → attempt.undoes = true → l.stack.head? = some attempt.base

theorem Valid.next {l l' : Lineage} {event : Event} (valid : l.Valid) (step : l.next event = some l') :
    l'.Valid := by
  intro attempt is undoes
  cases event with
  | configure id config =>
    simp only [Lineage.next] at step
    split_ifs at step
    · obtain rfl := Option.some.inj step
      exact valid attempt is undoes
    · split at step
      · next before there =>
        split_ifs at step
        obtain rfl := Option.some.inj step
        obtain rfl := Option.some.inj is
        exact valid before there undoes
      · cases step
  | upgrade old new packageId =>
    simp only [Lineage.next] at step
    split_ifs at step
    obtain rfl := Option.some.inj step
    obtain rfl := Option.some.inj is
    cases undoes
  | rollback old new =>
    simp only [Lineage.next] at step
    split at step
    · next top rest _ stack =>
      split_ifs at step
      obtain rfl := Option.some.inj step
      obtain rfl := Option.some.inj is
      simp [stack]
    · cases step
  | abandon old =>
    simp only [Lineage.next] at step
    split_ifs at step
    obtain rfl := Option.some.inj step
    cases is
  | commit old =>
    simp only [Lineage.next] at step
    split at step
    · split_ifs at step
      obtain rfl := Option.some.inj step
      cases is
    · cases step

theorem next_ids {l l' : Lineage} {event : Event} (step : l.next event = some l')
    {id : InstanceId} (mem : id ∈ l.ids) : id ∈ l'.ids := by
  cases event with
  | configure other config =>
    simp only [Lineage.next] at step
    split_ifs at step
    · obtain rfl := Option.some.inj step
      exact mem
    · split at step
      · split_ifs at step
        obtain rfl := Option.some.inj step
        exact mem
      · cases step
  | upgrade old new packageId =>
    simp only [Lineage.next] at step
    split_ifs at step
    obtain rfl := Option.some.inj step
    exact mem
  | rollback old new =>
    simp only [Lineage.next] at step
    split at step
    · split_ifs at step
      obtain rfl := Option.some.inj step
      exact mem
    · cases step
  | abandon old =>
    simp only [Lineage.next] at step
    split_ifs at step
    obtain rfl := Option.some.inj step
    exact mem
  | commit old =>
    simp only [Lineage.next] at step
    split at step
    · split_ifs at step
      obtain rfl := Option.some.inj step
      exact List.mem_cons_of_mem _ mem
    · cases step

end Lineage

def RAppInstance.snapshot (inst : RAppInstance) : Snapshot := ⟨inst.packageId, inst.settings⟩

def RAppInstanceVersion.snapshot (version : RAppInstanceVersion) : Snapshot :=
  ⟨version.previousPackageId, version.settings⟩

def RAppInstanceVersion.succession (version : RAppInstanceVersion) : Succession :=
  ⟨version.previousInstanceId, version.instanceId, version.kind, version.snapshot⟩

section Content

variable {manifest : PackageId → RappLimits} {begun s s' : World} {act : Act}
  {inst found left : RAppInstance} {id : InstanceId}

/-- A row as it was, but for its state, its invoker id and a configuration that was set. -/
structure Alike (act : Act) (before found : RAppInstance) : Prop where
  undoes : found.rollbackOfVersionId = before.rollbackOfVersionId
  snapshot : found.snapshot = before.snapshot ∨
    ∃ caller config, act = .setConfig caller before.instanceId config ∧
      found.snapshot = before.snapshot.configured config

theorem Alike.refl (act : Act) (found : RAppInstance) : Alike act found found := ⟨rfl, .inl rfl⟩

theorem Move.content (move : Move manifest begun act s s') (row : s'.db.row id = some found)
    (old : (s.db.row id).isSome = true) : ∃ before, s.db.row id = some before ∧
      Alike act before found := by
  have written : ∀ {inst left : RAppInstance}, s'.db = s.db.put left →
      s.db.row inst.instanceId = some inst → left.instanceId = inst.instanceId →
      Alike act inst left → ∃ before, s.db.row id = some before ∧ Alike act before found := by
    intro inst left rows there key alike
    rcases row_put_cases (rows ▸ row) with ⟨rfl, rfl⟩ | ⟨-, before⟩
    · exact ⟨inst, key ▸ there, alike⟩
    · exact ⟨found, before, .refl _ _⟩
  cases move with
  | calls calls => exact ⟨found, calls.db ▸ row, .refl _ _⟩
  | passed | stopped | lifted | refused => exact ⟨found, row, .refl _ _⟩
  | created inst fresh unused plain =>
    rcases row_add_cases fresh row with ⟨rfl, rfl⟩ | ⟨-, before⟩
    · simp [fresh.absent] at old
    · exact ⟨found, before, .refl _ _⟩
  | rotated is there loaded issued deploying drawn fresh =>
    exact written rfl there rfl ⟨rfl, .inl rfl⟩
  | bootstrapped is there deploying loaded took safe => exact written rfl there rfl ⟨rfl, .inl rfl⟩
  | recovered is there faulted => exact written rfl there rfl ⟨rfl, .inl rfl⟩
  | crashed is there running own loaded => exact written rfl there rfl ⟨rfl, .inl rfl⟩
  | configured is there => exact written rfl there rfl ⟨rfl, .inr ⟨_, _, is, rfl⟩⟩
  | started is there running loaded named fresh unused replaces made =>
    rcases started_row fresh row with ⟨rfl, rfl⟩ | ⟨rfl, rfl⟩ | ⟨-, before⟩
    · simp [fresh.absent] at old
    · exact ⟨_, there, rfl, .inl rfl⟩
    · exact ⟨found, before, .refl _ _⟩
  | rolledBack there pending newRow =>
    obtain ⟨-, ⟨rfl, rfl⟩ | ⟨-, before⟩⟩ := rolled_row row
    · exact ⟨_, there, rfl, .inl rfl⟩
    · exact ⟨found, before, .refl _ _⟩
  | abandoned begunRow owner gone pending newRow unnamed =>
    exact ⟨found, (abandoned_row gone row).2, .refl _ _⟩
  | committed is there pending newRow ran takes same unnamed =>
    obtain ⟨-, ⟨rfl, rfl⟩ | ⟨-, before⟩⟩ := replaced_row row
    · rcases ran with ⟨-, rfl⟩ | ⟨-, set, rfl, -⟩
      · exact ⟨_, newRow, rfl, .inl rfl⟩
      · exact ⟨_, newRow, rfl, .inl rfl⟩
    · exact ⟨found, before, .refl _ _⟩
  | terminated there legal unowned same undeployed revoked alone is plain =>
    obtain ⟨teardown, usage, rfl⟩ := plain
    exact written rfl there rfl ⟨rfl, .inl rfl⟩
  | deleted is there undeployed unnamed => exact ⟨found, (row_remove_some row).2, .refl _ _⟩

inductive Began (act : Act) (s : World) (owner : InstanceId) (other found : RAppInstance) : Prop
  | upgrade {o : Outside} {package : PackageId} (is : act = .upgrade o owner package)
      (snapshot : found.snapshot = ⟨package, other.settings⟩)
      (plain : found.rollbackOfVersionId = none)
  | rollback {o : Outside} {id : InstanceId} {version : RAppInstanceVersion}
      (is : act = .rollback o id) (target : rollbackTarget s.db owner = some version)
      (snapshot : found.snapshot = version.snapshot)
      (undoes : found.rollbackOfVersionId = some version.versionId)

theorem Move.began (move : Move manifest begun act s s') (wf : Wf s) {owner : InstanceId}
    {other : RAppInstance} (there : s'.db.row owner = some other)
    (names : other.pendingUpgradeInstanceId = some id) (absent : s.db.row id = none)
    (row : s'.db.row id = some found) : Began act s owner other found := by
  have was : (s.db.row id).isSome = true → False := by simp [absent]
  have written : ∀ {left : RAppInstance}, s'.db = s.db.put left → False := fun rows =>
    was (by rw [← isSome_put, ← rows, row]; rfl)
  have named : s.db.row owner = some other → False := fun before =>
    was (wf.pendingThere _ _ _ before names)
  cases move with
  | calls calls => exact (was (by rw [← calls.db, row]; rfl)).elim
  | passed | stopped | lifted | refused => exact (was (by rw [row]; rfl)).elim
  | created inst fresh unused plain =>
    rcases row_add_cases fresh there with ⟨rfl, rfl⟩ | ⟨-, before⟩
    · cases fresh.alone.symm.trans names
    · exact (named before).elim
  | rotated | bootstrapped | recovered | crashed | configured | terminated =>
    exact (written rfl).elim
  | @started o old new restore is running _ loaded other fresh unused replaces made =>
    rcases started_row fresh there with ⟨rfl, rfl⟩ | ⟨rfl, rfl⟩ | ⟨-, before⟩
    · cases fresh.alone.symm.trans names
    · obtain rfl := Option.some.inj names
      rcases started_row fresh row with ⟨-, rfl⟩ | ⟨same, -⟩ | ⟨-, before⟩
      · rcases is with ⟨package, is, rfl, rfl⟩ | ⟨id, version, is, rfl, target, package⟩
        · refine .upgrade is ?_ replaces.restores
          rw [RAppInstance.snapshot, replaces.settings]
          rfl
        · refine .rollback is target ?_ replaces.restores
          rw [RAppInstance.snapshot, replaces.settings, package]
          rfl
      · rw [same] at absent
        cases absent.symm.trans running
      · cases absent.symm.trans before
    · exact (named before).elim
  | rolledBack oldRow pending newRow =>
    obtain ⟨-, ⟨rfl, rfl⟩ | ⟨-, before⟩⟩ := rolled_row row
    · cases absent.symm.trans oldRow
    · cases absent.symm.trans before
  | abandoned begunRow owner gone pending newRow unnamed =>
    cases absent.symm.trans (abandoned_row gone row).2
  | committed is there pending newRow ran takes same unnamed =>
    obtain ⟨-, ⟨rfl, rfl⟩ | ⟨-, before⟩⟩ := replaced_row row
    · rcases ran with ⟨-, rfl⟩ | ⟨-, set, rfl, -⟩
      · cases absent.symm.trans newRow
      · cases absent.symm.trans newRow
    · cases absent.symm.trans before
  | deleted is there undeployed unnamed => cases absent.symm.trans (row_remove_some row).2

def Aimed (w : World) : Prop :=
  ∀ owner inst next new undone, w.db.row owner = some inst →
    inst.pendingUpgradeInstanceId = some next → w.db.row next = some new →
    new.rollbackOfVersionId = some undone →
    ∃ version ∈ w.db.versions, version.versionId = undone ∧
      ∃ n, LeadsTo w.db n version.previousInstanceId owner

theorem Change.versions (change : Change begun act s s') (start : Paired begun) :
    ∀ version ∈ s.db.versions, ∃ kept ∈ s'.db.versions, kept.versionId = version.versionId ∧
      kept.instanceId = version.instanceId ∧
      kept.previousInstanceId = version.previousInstanceId := by
  have stays : s'.db.versions = s.db.versions → ∀ version ∈ s.db.versions,
      ∃ kept ∈ s'.db.versions, kept.versionId = version.versionId ∧
        kept.instanceId = version.instanceId ∧
        kept.previousInstanceId = version.previousInstanceId :=
    fun same version mem => ⟨version, same ▸ mem, rfl, rfl, rfl⟩
  cases change with
  | unchanged rows => exact stays (congrArg Db.versions rows)
  | rewritten rows | created rows | started rows | rolledBack rows | deleted _ rows =>
    exact stays (by rw [rows]; rfl)
  | abandoned begunRow named pending => simp [start.not_abandoned begunRow named] at pending
  | @committed o old new is after =>
    subst after
    intro version mem
    refine ⟨_, ?_, marked_same new.rollbackOfVersionId s.drawn version⟩
    have versions := recordVersion_versions
      (s.db.put { new with lastTeardown := some (released o old .upgradeCommit) })
      (versionOf s.drawn old { new with lastTeardown := some (released o old .upgradeCommit) })
      new.rollbackOfVersionId
    refine versions.symm ▸ List.mem_map_of_mem (List.mem_append_left _ mem)

theorem Aimed.move (aimed : Aimed s) (start : Paired begun) (wf : Wf s)
    (move : Move manifest begun act s s') : Aimed s' := by
  intro owner inst next new undone row pending newRow undoes
  have change := move.change wf
  have stays : ∀ version ∈ s.db.versions, version.versionId = undone →
      (∃ n, LeadsTo s.db n version.previousInstanceId owner) →
      ∃ version ∈ s'.db.versions, version.versionId = undone ∧
        ∃ n, LeadsTo s'.db n version.previousInstanceId owner := by
    rintro version mem rfl ⟨n, leads⟩
    obtain ⟨kept, mem, same, -, previous⟩ := change.versions start version mem
    refine ⟨kept, mem, same, n, ?_⟩
    rw [previous]
    refine leads.more fun version mem => ?_
    obtain ⟨kept, mem, -, made⟩ := change.versions start version mem
    exact ⟨kept, mem, made⟩
  rcases change.pending start row pending with ⟨before, ownerRow, names⟩ | ⟨-, absent⟩
  · obtain ⟨newBefore, there, alike⟩ := move.content newRow
      (wf.pendingThere _ _ next ownerRow names)
    obtain ⟨version, mem, is, leads⟩ := aimed owner before next newBefore undone ownerRow names there
      (alike.undoes.symm.trans undoes)
    exact stays version mem is leads
  · cases move.began wf row pending absent newRow with
    | upgrade _ _ plain => cases plain.symm.trans undoes
    | rollback _ target _ is =>
      obtain ⟨mem, leads⟩ := rollbackTarget_leads target
      exact stays _ mem (Option.some.inj (is.symm.trans undoes)) leads

end Content

section Marks

variable {db db' : Db} {id : InstanceId} {versions : List RAppInstanceVersion}
  {version top : RAppInstanceVersion} {undone : Option VersionId} {by_ : VersionId}

theorem Linked.same (linked : Linked db id versions) (same : db'.versions = db.versions) :
    Linked db' id versions := by
  have made : ∀ id, versionThatMade db' id = versionThatMade db id := fun id => by
    rw [versionThatMade, versionThatMade, same]
  induction versions generalizing id with
  | nil => exact (made id).trans linked
  | cons version rest ih => exact ⟨(made id).trans linked.1, ih linked.2⟩

theorem versionThatMade_recorded (absent : versionThatMade db version.instanceId = none) :
    versionThatMade (recordVersion db version undone) id =
      (if version.instanceId = id then some version else versionThatMade db id).map
        (·.marked undone version.versionId) := by
  let keyed : RAppInstanceVersion → Bool := fun found => found.instanceId = id
  have same : keyed ∘ RAppInstanceVersion.marked undone version.versionId = keyed :=
    funext fun found => by
      simp only [keyed, Function.comp, (marked_same undone version.versionId found).2.1]
  rw [versionThatMade, recordVersion_versions, Table.get, List.find?_map, same]
  exact congrArg _ (Table.get_snoc absent)

theorem Linked.recorded (linked : Linked db id versions)
    (absent : versionThatMade db version.instanceId = none) (apart : version.instanceId ≠ id)
    (behind : ∀ listed ∈ versions, version.instanceId ≠ listed.previousInstanceId) :
    Linked (recordVersion db version undone) id
      (versions.map (·.marked undone version.versionId)) := by
  induction versions generalizing id with
  | nil =>
    refine (versionThatMade_recorded absent).trans ?_
    rw [if_neg apart, show versionThatMade db id = none from linked]
    rfl
  | cons first rest ih =>
    obtain ⟨made, linked⟩ := linked
    refine ⟨?_, ?_⟩
    · rw [versionThatMade_recorded absent, if_neg apart, made]
      rfl
    · rw [(marked_same _ _ first).2.2]
      exact ih linked (behind first List.mem_cons_self)
        fun listed mem => behind listed (List.mem_cons_of_mem _ mem)

theorem marked_succession (undone : Option VersionId) (by_ : VersionId)
    (version : RAppInstanceVersion) :
    (version.marked undone by_).succession = version.succession := by
  simp only [RAppInstanceVersion.marked]
  split <;> rfl

theorem marked_apart (apart : ∀ listed ∈ versions, undone ≠ some listed.versionId) :
    versions.map (·.marked undone by_) = versions := by
  rw [List.map_congr_left fun listed mem => ?_, List.map_id]
  rw [RAppInstanceVersion.marked, if_neg (apart listed mem)]
  rfl

theorem marked_top (distinct : (versions.map (·.versionId)).Nodup)
    (is : versions.find? (·.open_) = some top) :
    (versions.map (·.marked (some top.versionId) by_)).filter (·.open_) =
      (versions.filter (·.open_)).tail := by
  induction versions with
  | nil => cases is
  | cons first rest ih =>
    obtain ⟨fresh, distinct⟩ := List.nodup_cons.mp distinct
    by_cases isOpen : first.open_
    · rw [List.find?_cons_of_pos isOpen] at is
      obtain rfl := Option.some.inj is
      have closed : (first.marked (some first.versionId) by_).open_ = false := by
        simp [RAppInstanceVersion.marked, RAppInstanceVersion.open_]
      have rest' : rest.map (·.marked (some first.versionId) by_) = rest :=
        marked_apart fun listed mem same =>
          fresh (List.mem_map.mpr ⟨listed, mem, (Option.some.inj same).symm⟩)
      rw [List.map_cons, List.filter_cons_of_neg (by simp [closed]), rest',
        List.filter_cons_of_pos isOpen]
      rfl
    · rw [List.find?_cons_of_neg isOpen] at is
      have closed : (first.marked (some top.versionId) by_).open_ = false := by
        simp only [RAppInstanceVersion.marked]
        split
        · simp [RAppInstanceVersion.open_]
        · simpa using isOpen
      rw [List.map_cons, List.filter_cons_of_neg (by simp [closed]),
        List.filter_cons_of_neg isOpen]
      exact ih distinct is

end Marks

/-- The events of a lineage that a request can cause; one that loads an instance can give up its
overdue upgrade. -/
inductive Causes : Act → Event → Prop
  | configure (caller : Caller) (id : InstanceId) (config : Json.Value) :
      Causes (.setConfig caller id config) (.configure id config)
  | upgrade (o : Outside) (old new : InstanceId) (package : PackageId) :
      Causes (.upgrade o old package) (.upgrade old new package)
  | rollback (o : Outside) (id old new : InstanceId) : Causes (.rollback o id) (.rollback old new)
  | abandon (act : Act) (old : InstanceId) : Causes act (.abandon old)
  | commit (o : Outside) (old : InstanceId) : Causes (.resolve o old true) (.commit old)

def Goes (act : Act) (l l' : Lineage) : Prop :=
  ∃ events, (∀ event ∈ events, Causes act event) ∧ l.run events = some l'

structure Tracks (l : Lineage) (w : World) (inst : RAppInstance)
    (versions : List RAppInstanceVersion) : Prop where
  row : w.db.row l.current = some inst
  running : inst.snapshot = l.running
  alive : inst.state ≠ .undeployed
  pending : inst.pendingUpgradeInstanceId = l.attempt.map (·.id)
  unnamed : ¬Named w l.current
  linked : Linked w.db l.current versions
  distinct : (versions.map (·.versionId)).Nodup
  commits : versions.map (·.succession) = l.commits
  stack : (versions.filter (·.open_)).map (·.snapshot) = l.stack
  attempt : ∀ attempt, l.attempt = some attempt → ∃ new, w.db.row attempt.id = some new ∧
    new.snapshot = attempt.snapshot ∧ new.rollbackOfVersionId =
      if attempt.undoes then (versions.find? (·.open_)).map (·.versionId) else none

section Steps

variable {manifest : PackageId → RappLimits} {begun s s' w w' : World} {act : Act}
  {inst inst' new new' : RAppInstance} {l l' l'' : Lineage} {versions : List RAppInstanceVersion}
  {attempt : Attempt}

theorem Goes.refl (act : Act) (l : Lineage) : Goes act l l := ⟨[], nofun, rfl⟩

theorem Goes.one {event : Event} (causes : Causes act event) (next : l.next event = some l') :
    Goes act l l' := by
  refine ⟨[event], fun other mem => List.mem_singleton.mp mem ▸ causes, ?_⟩
  simp [Lineage.run, next]

theorem Goes.trans (first : Goes act l l') (second : Goes act l' l'') : Goes act l l'' := by
  obtain ⟨events, causes, run⟩ := first
  obtain ⟨more, causes', run'⟩ := second
  refine ⟨events ++ more, fun event mem => ?_, ?_⟩
  · rcases List.mem_append.mp mem with early | late
    · exact causes event early
    · exact causes' event late
  · simp only [Lineage.run] at run run' ⊢
    rw [List.foldlM_append, run]
    exact run'

theorem Alike.running (alike : Alike act inst inst') (current : inst.instanceId = l.current)
    (running : inst.snapshot = l.running) : Goes act l { l with running := inst'.snapshot } := by
  rcases alike.snapshot with same | ⟨caller, config, rfl, set⟩
  · rw [same, running]
    exact .refl _ _
  · refine .one (.configure caller _ config) ?_
    simp [Lineage.next, current, set, running]

theorem Attempt.snapshot_configured (attempt : Attempt) (config : Json.Value) :
    attempt.snapshot.configured config = { attempt with edit := some config }.snapshot := by
  simp only [Attempt.snapshot]
  cases attempt.edit with
  | none => rfl
  | some before => rfl

theorem Alike.pending (alike : Alike act new new') (is : l.attempt = some attempt)
    (same : new.instanceId = attempt.id) (apart : attempt.id ≠ l.current)
    (held : new.snapshot = attempt.snapshot) : ∃ edit,
      new'.snapshot = { attempt with edit }.snapshot ∧
        Goes act l { l with attempt := some { attempt with edit } } := by
  rcases alike.snapshot with kept | ⟨caller, config, rfl, set⟩
  · refine ⟨attempt.edit, kept.trans held, ?_⟩
    rw [← is]
    exact .refl _ _
  · refine ⟨some config, ?_, .one (.configure caller _ config) ?_⟩
    · rw [set, held, attempt.snapshot_configured config]
    · simp [Lineage.next, same, apart, is]

theorem replaced_there {o : Outside} {old found : RAppInstance}
    (row : s.db.row new.instanceId = some found) (apart : new.instanceId ≠ old.instanceId) :
    (replaced o s old new).db.row new.instanceId =
      some { new with lastTeardown := some (released o old .upgradeCommit) } := by
  let left : RAppInstance := { new with lastTeardown := some (released o old .upgradeCommit) }
  have put : (s.db.put left).row new.instanceId = some left := @row_put_there s found left row
  refine (Db.row_remove _).trans ?_
  rw [if_neg apart, Db.row_recordVersion]
  exact put

theorem Paired.unmade {old : RAppInstance} (paired : Paired s)
    (row : s.db.row old.instanceId = some old)
    (pending : old.pendingUpgradeInstanceId = some new.instanceId) :
    versionThatMade s.db new.instanceId = none := by
  refine Table.get_eq_none fun version mem same => ?_
  exact (paired.made version mem).2 ⟨_, old, row, pending.trans (congrArg some same.symm)⟩

theorem Tracks.outside (tracks : Tracks l s inst versions) (start : Paired begun)
    (change : Change begun act s s') : ¬Named s' l.current := by
  rintro ⟨owner, other, there, names⟩
  rcases change.pending start there names with ⟨before, row, names⟩ | ⟨-, absent⟩
  · exact tracks.unnamed ⟨owner, before, row, names⟩
  · cases absent.symm.trans tracks.row

theorem Tracks.links (tracks : Tracks l s inst versions) (start : Paired begun)
    (logged : Logged begun act s) (aimed : Aimed s) (move : Move manifest begun act s s')
    (there : (s'.db.row l.current).isSome = true) : Linked s'.db l.current versions := by
  have wf := logged.reached.paired.wf
  have change := move.change wf
  cases change with
  | unchanged rows => exact tracks.linked.same (congrArg Db.versions rows)
  | rewritten rows | created rows | started rows | rolledBack rows | deleted _ rows =>
    exact tracks.linked.same (by rw [rows]; rfl)
  | abandoned begunRow named pending => simp [start.not_abandoned begunRow named] at pending
  | @committed o old new is after row pending newRow running alone same =>
    subst after
    obtain ⟨found, newRow, -⟩ := newRow
    have apart : old.instanceId ≠ l.current := by
      intro same
      have gone : (replaced o s old new).db.row l.current = none :=
        (Db.row_remove _).trans (if_pos same.symm)
      simp [gone] at there
    have apart' : new.instanceId ≠ old.instanceId := fun same =>
      wf.apart _ _ row (pending.trans (congrArg some same))
    have newApart : new.instanceId ≠ l.current := fun same =>
      tracks.unnamed ⟨_, old, row, pending.trans (congrArg some same)⟩
    have behind : ∀ listed ∈ versions, new.instanceId ≠ listed.previousInstanceId := by
      intro listed mem same
      have gone := logged.recorded.gone listed (tracks.linked.mem mem).1
      rw [← same] at gone
      cases gone.symm.trans newRow
    let left : RAppInstance := { new with lastTeardown := some (released o old .upgradeCommit) }
    have unmarked : versions.map (·.marked left.rollbackOfVersionId s.drawn) = versions := by
      refine marked_apart fun listed mem undoes => ?_
      obtain ⟨before, was, alike⟩ := move.content (replaced_there newRow apart') (by simp [newRow])
      obtain ⟨version, mem', same, n, leads⟩ := aimed _ old _ before _ row pending was
        (alike.undoes.symm.trans undoes)
      obtain ⟨memDb, m, -, leads'⟩ := tracks.linked.mem mem
      obtain rfl := List.inj_on_of_nodup_map logged.recorded.versionIds mem' memDb same
      exact apart (leads.unique logged.recorded leads' (by simp [row]) (by simp [tracks.row])).2
    have more := @Linked.recorded (s.db.put left) _ _ (versionOf s.drawn old left)
      left.rollbackOfVersionId (tracks.linked.same rfl)
      (logged.reached.paired.unmade row pending) newApart behind
    exact (unmarked ▸ more).same rfl

theorem Tracks.kept (tracks : Tracks l s inst versions) (start : Paired begun)
    (logged : Logged begun act s) (aimed : Aimed s) (wf' : Wf s')
    (move : Move manifest begun act s s') (row : s'.db.row l.current = some inst')
    (pending : inst'.pendingUpgradeInstanceId = inst.pendingUpgradeInstanceId)
    (alive : inst'.state ≠ .undeployed) :
    ∃ l', Goes act l l' ∧ l'.current = l.current ∧ Tracks l' s' inst' versions := by
  have wf := logged.reached.paired.wf
  obtain ⟨before, was, alike⟩ := move.content row (by simp [tracks.row])
  obtain rfl := Option.some.inj (was.symm.trans tracks.row)
  have linked := tracks.links start logged aimed move (by simp [row])
  have unnamed := tracks.outside start (move.change wf)
  have first := alike.running (Db.row_id tracks.row) tracks.running
  rcases Option.eq_none_or_eq_some l.attempt with none | ⟨attempt, is⟩
  · exact ⟨_, first, rfl, row, rfl, alive, pending.trans tracks.pending, unnamed, linked,
      tracks.distinct, tracks.commits, tracks.stack, fun _ some => by cases none.symm.trans some⟩
  · obtain ⟨new, newRow, held, undoes⟩ := tracks.attempt attempt is
    have names : before.pendingUpgradeInstanceId = some attempt.id := by
      rw [tracks.pending, is]
      rfl
    obtain ⟨new', newRow'⟩ :=
      Option.isSome_iff_exists.mp (wf'.pendingThere _ _ _ row (pending.trans names))
    obtain ⟨_, there, alike'⟩ := move.content newRow' (by simp [newRow])
    obtain rfl := Option.some.inj (there.symm.trans newRow)
    have apart : attempt.id ≠ l.current := fun same =>
      wf.apart _ _ tracks.row (names.trans (congrArg some same))
    obtain ⟨edit, held', goes⟩ := @Alike.pending _ _ _ { l with running := inst'.snapshot } _ alike'
      is (Db.row_id newRow) apart held
    refine ⟨_, first.trans goes, rfl, row, rfl, alive, pending.trans names, unnamed, linked,
      tracks.distinct, tracks.commits, tracks.stack, fun now is => ?_⟩
    obtain rfl := Option.some.inj is
    exact ⟨new', newRow', held', alike'.undoes.trans undoes⟩

theorem Tracks.abandoned (tracks : Tracks l s inst versions) (start : Paired begun)
    (logged : Logged begun act s) (aimed : Aimed s) (wf' : Wf s')
    (move : Move manifest begun act s s') (row : s'.db.row l.current = some inst')
    (pending : inst.pendingUpgradeInstanceId.isSome = true) (running : inst'.state = .running) :
    ∃ l', Goes act l l' ∧ l'.current = l.current ∧ Tracks l' s' inst' versions := by
  have wf := logged.reached.paired.wf
  obtain ⟨before, was, alike⟩ := move.content row (by simp [tracks.row])
  obtain rfl := Option.some.inj (was.symm.trans tracks.row)
  have unnamed := tracks.outside start (move.change wf)
  have attempted : l.attempt.isSome = true := by
    rw [tracks.pending, Option.isSome_map] at pending
    exact pending
  have gone : Goes act l { l with attempt := none } := by
    refine .one (.abandon act l.current) ?_
    rw [Lineage.next, if_pos ⟨rfl, attempted⟩]
  have next := @Alike.running _ _ _ { l with attempt := none } alike (Db.row_id tracks.row)
    tracks.running
  refine ⟨_, gone.trans next, rfl, row, rfl, by simp [running], ?_, unnamed,
    tracks.links start logged aimed move (by simp [row]), tracks.distinct, tracks.commits,
    tracks.stack, nofun⟩
  exact wf'.alone ((Db.row_id row).symm ▸ row) (by simp [running])

theorem Tracks.began (tracks : Tracks l s inst versions) (start : Paired begun)
    (logged : Logged begun act s) (aimed : Aimed s) (wf' : Wf s')
    (move : Move manifest begun act s s') (row : s'.db.row l.current = some inst')
    (running : inst.state = .running) (alive : inst'.state ≠ .undeployed) :
    ∃ l', Goes act l l' ∧ l'.current = l.current ∧ Tracks l' s' inst' versions := by
  have wf := logged.reached.paired.wf
  have alone : inst.pendingUpgradeInstanceId = none := by
    have same := Db.row_id tracks.row
    exact wf.alone (same.symm ▸ tracks.row) (by simp [running])
  rcases Option.eq_none_or_eq_some inst'.pendingUpgradeInstanceId with same | ⟨next, names⟩
  · exact tracks.kept start logged aimed wf' move row (same.trans alone.symm) alive
  have change := move.change wf
  obtain ⟨before, was, alike⟩ := move.content row (by simp [tracks.row])
  obtain rfl := Option.some.inj (was.symm.trans tracks.row)
  have unnamed := tracks.outside start change
  have absent : s.db.row next = none := by
    rcases change.pending start row names with ⟨old, there, names⟩ | ⟨-, absent⟩
    · obtain rfl := Option.some.inj (there.symm.trans tracks.row)
      cases alone.symm.trans names
    · exact absent
  have idle : l.attempt = none := by
    have pending := tracks.pending
    rw [alone] at pending
    exact Option.map_eq_none_iff.mp pending.symm
  have linked := tracks.links start logged aimed move (by simp [row])
  obtain ⟨found, newRow⟩ := Option.isSome_iff_exists.mp (wf'.pendingThere _ _ next row names)
  have first := alike.running (Db.row_id tracks.row) tracks.running
  cases move.began wf row names absent newRow with
  | @upgrade o package is held plain =>
    subst is
    let attempt : Attempt := ⟨next, ⟨package, inst'.settings⟩, false, none⟩
    have starts : Goes (.upgrade o l.current package) { l with running := inst'.snapshot }
        { l with running := inst'.snapshot, attempt := some attempt } := by
      refine .one (.upgrade o _ next package) ?_
      rw [Lineage.next, if_pos ⟨rfl, by simp [idle]⟩]
      rfl
    refine ⟨_, first.trans starts, rfl, row, rfl, alive, names, unnamed, linked, tracks.distinct,
      tracks.commits, tracks.stack, fun now is => ?_⟩
    obtain rfl := Option.some.inj is
    exact ⟨found, newRow, held, plain⟩
  | @rollback o id version is target held undoes =>
    subst is
    have found' : versions.find? (·.open_) = some version := by
      rw [rollbackTarget, versionHistory_linked tracks.linked tracks.distinct] at target
      exact target
    obtain ⟨below, stack⟩ : ∃ below, l.stack = version.snapshot :: below := by
      have top : l.stack.head? = some version.snapshot := by
        rw [← tracks.stack, List.head?_map, List.head?_filter, found']
        rfl
      exact List.head?_eq_some_iff.mp top
    let attempt : Attempt := ⟨next, version.snapshot, true, none⟩
    have starts : Goes (.rollback o id) { l with running := inst'.snapshot }
        { l with running := inst'.snapshot, attempt := some attempt } := by
      refine .one (.rollback o id l.current next) ?_
      simp only [Lineage.next, idle, stack, if_true]
      rfl
    refine ⟨_, first.trans starts, rfl, row, rfl, alive, names, unnamed, linked, tracks.distinct,
      tracks.commits, tracks.stack, fun now is => ?_⟩
    obtain rfl := Option.some.inj is
    refine ⟨found, newRow, held, undoes.trans ?_⟩
    rw [if_pos rfl, found']
    rfl

theorem Goes.keeps (goes : Goes act l l') {property : Lineage → Prop} (holds : property l)
    (next : ∀ l event l', property l → l.next event = some l' → property l') : property l' := by
  obtain ⟨events, -, run⟩ := goes
  induction events generalizing l with
  | nil =>
    obtain rfl := Option.some.inj run
    exact holds
  | cons event rest ih =>
    simp only [Lineage.run, List.foldlM_cons, Option.bind_eq_bind, Option.bind_eq_some_iff] at run
    obtain ⟨middle, step, run⟩ := run
    exact ih (next l event middle holds step) run

theorem Lineage.Valid.goes (valid : l.Valid) (goes : Goes act l l') : l'.Valid :=
  goes.keeps valid fun _ _ _ valid step => valid.next step

theorem Tracks.pushed (tracks : Tracks l s inst versions) (valid : l.Valid)
    (is : l.attempt = some attempt) {left : RAppInstance} {versionId : VersionId}
    (same : left.instanceId = attempt.id) (undoes : left.rollbackOfVersionId =
      if attempt.undoes then (versions.find? (·.open_)).map (·.versionId) else none) :
    let version := versionOf versionId inst left
    let recorded := (version :: versions).map (·.marked left.rollbackOfVersionId versionId)
    recorded.map (·.succession) = (l.committed attempt).commits ∧
      (recorded.filter (·.open_)).map (·.snapshot) = (l.committed attempt).stack := by
  have current : inst.instanceId = l.current := Db.row_id tracks.row
  have retired : (versionOf versionId inst left).snapshot = l.running := tracks.running
  have all : (versions.map (·.marked left.rollbackOfVersionId versionId)).map (·.succession) =
      l.commits := by
    rw [List.map_map, ← tracks.commits]
    exact List.map_congr_left fun version _ => marked_succession _ _ version
  cases undoing : attempt.undoes with
  | false =>
    rw [undoing] at undoes
    have plain : left.rollbackOfVersionId = none := undoes
    have unmarked : ∀ listed : List RAppInstanceVersion,
        listed.map (·.marked none versionId) = listed :=
      fun listed => marked_apart fun _ _ => nofun
    have isOpen : (versionOf versionId inst left).open_ = true := by
      simp [versionOf, RAppInstanceVersion.open_, plain]
    simp only [plain, unmarked] at all ⊢
    refine ⟨?_, ?_⟩
    · rw [List.map_cons, all]
      simp only [Lineage.committed, undoing, RAppInstanceVersion.succession, retired]
      simp [versionOf, plain, current, same]
    · rw [List.filter_cons_of_pos isOpen, List.map_cons, tracks.stack, retired]
      simp [Lineage.committed, undoing]
  | true =>
    rw [undoing, if_pos rfl] at undoes
    have top : ∃ top, versions.find? (·.open_) = some top := by
      have head := valid attempt is undoing
      rw [← tracks.stack, List.head?_map, List.head?_filter] at head
      obtain ⟨top, found, -⟩ := Option.map_eq_some_iff.mp head
      exact ⟨top, found⟩
    obtain ⟨top, found⟩ := top
    rw [found] at undoes
    have undone : left.rollbackOfVersionId = some top.versionId := undoes
    have closed : ((versionOf versionId inst left).marked left.rollbackOfVersionId
        versionId).open_ = false := by
      simp only [RAppInstanceVersion.marked]
      split <;> simp [versionOf, RAppInstanceVersion.open_, undone]
    refine ⟨?_, ?_⟩
    · rw [List.map_cons, List.map_cons, all, marked_succession]
      simp only [Lineage.committed, undoing, RAppInstanceVersion.succession, retired]
      simp [versionOf, undone, current, same]
    · rw [List.map_cons, List.filter_cons_of_neg (by simp [closed]), undone,
        marked_top tracks.distinct found, List.map_tail, tracks.stack]
      simp [Lineage.committed, undoing]

theorem Tracks.committed (tracks : Tracks l s inst versions) (valid : l.Valid)
    (logged : Logged begun act s) {o : Outside}
    (move : Move manifest begun act s (replaced o s inst new))
    (is : act = .resolve o l.current true)
    (pending : inst.pendingUpgradeInstanceId = some new.instanceId)
    (running : new.state = .running) (alone : new.pendingUpgradeInstanceId = none)
    (unnamed : ¬Named (replaced o s inst new) new.instanceId) :
    ∃ l' left versions', Goes act l l' ∧ Tracks l' (replaced o s inst new) left versions' := by
  have wf := logged.reached.paired.wf
  have key : inst.instanceId = l.current := Db.row_id tracks.row
  have row : s.db.row inst.instanceId = some inst := key ▸ tracks.row
  have attempted : l.attempt.map (·.id) = some new.instanceId := tracks.pending.symm.trans pending
  obtain ⟨attempt, attempts, same⟩ := Option.map_eq_some_iff.mp attempted
  obtain ⟨found, newRow, held, undoes⟩ := tracks.attempt attempt attempts
  rw [same] at newRow
  have apart : new.instanceId ≠ inst.instanceId := fun same =>
    wf.apart _ _ row (pending.trans (congrArg some same))
  let left : RAppInstance := { new with lastTeardown := some (released o inst .upgradeCommit) }
  have there : (replaced o s inst new).db.row new.instanceId = some left :=
    replaced_there newRow apart
  obtain ⟨_, was, alike⟩ := move.content there (by simp [newRow])
  obtain rfl := Option.some.inj (newRow.symm.trans was)
  have snapshot : left.snapshot = attempt.snapshot := by
    rcases alike.snapshot with kept | ⟨caller, config, set, -⟩
    · exact kept.trans held
    · cases is.symm.trans set
  obtain ⟨commits, stack⟩ := @Tracks.pushed _ _ _ _ _ tracks valid attempts left s.drawn same.symm
    (alike.undoes.trans undoes)
  have behind : ∀ listed ∈ versions, new.instanceId ≠ listed.previousInstanceId := by
    intro listed mem same
    have gone := logged.recorded.gone listed (tracks.linked.mem mem).1
    rw [← same] at gone
    cases gone.symm.trans newRow
  have absent := logged.reached.paired.unmade row pending
  have linked := @Linked.recorded (s.db.put left) _ _ (versionOf s.drawn inst left)
    left.rollbackOfVersionId (tracks.linked.same rfl) absent (key ▸ apart) behind
  have made := @versionThatMade_recorded (s.db.put left) new.instanceId (versionOf s.drawn inst left)
    left.rollbackOfVersionId absent
  have fresh : s.drawn ∉ versions.map (·.versionId) := by
    intro mem
    obtain ⟨listed, mem, same⟩ := List.mem_map.mp mem
    exact absurd (logged.recorded.early listed (tracks.linked.mem mem).1) (same ▸ Nat.lt_irrefl _)
  have goes : Goes act l (l.committed attempt) := by
    rw [is]
    refine .one (.commit o l.current) ?_
    simp [Lineage.next, attempts]
  have now : (l.committed attempt).current = new.instanceId := same
  have previous : (versionOf s.drawn inst left).previousInstanceId = l.current := key
  refine ⟨_, left, (versionOf s.drawn inst left :: versions).map
    (·.marked left.rollbackOfVersionId s.drawn), goes, now ▸ there, snapshot, ?_, alone,
    now ▸ unnamed, ?_, ?_, commits, stack, nofun⟩
  · simp [left, running]
  · refine ⟨?_, ?_⟩
    · rw [now]
      exact made.trans (congrArg _ (if_pos rfl))
    · rw [(marked_same _ _ _).2.2, previous]
      exact linked.same rfl
  · have ids : RAppInstanceVersion.versionId ∘
        RAppInstanceVersion.marked left.rollbackOfVersionId s.drawn =
          RAppInstanceVersion.versionId := funext fun version => (marked_same _ _ version).1
    rw [List.map_map]
    refine ids.symm ▸ List.nodup_cons.mpr ⟨fresh, tracks.distinct⟩

theorem Tracks.move (tracks : Tracks l s inst versions) (valid : l.Valid) (start : Paired begun)
    (logged : Logged begun act s) (aimed : Aimed s) (kept : ∀ o, act ≠ .terminate o l.current)
    (move : Move manifest begun act s s') :
    ∃ l' inst' versions', Goes act l l' ∧ Tracks l' s' inst' versions' ∧
      ∀ o, act ≠ .terminate o l'.current := by
  have wf := logged.reached.paired.wf
  have wf' := move.wf wf
  have goesOn : ∀ {inst'}, (∃ l', Goes act l l' ∧ l'.current = l.current ∧
      Tracks l' s' inst' versions) → ∃ l' inst' versions', Goes act l l' ∧
        Tracks l' s' inst' versions' ∧ ∀ o, act ≠ .terminate o l'.current := by
    rintro inst' ⟨l', goes, same, tracks⟩
    exact ⟨l', inst', versions, goes, tracks, same ▸ kept⟩
  cases (move.change wf).of_row start wf wf' tracks.row with
  | @kept inst' row pending state =>
    refine goesOn (tracks.kept start logged aimed wf' move row pending fun undeployed => ?_)
    rcases state undeployed with dead | ⟨o, is⟩
    · exact tracks.alive dead
    · exact kept o is
  | back row running pending _ =>
    exact goesOn (tracks.abandoned start logged aimed wf' move row (by simp [pending]) running)
  | started row running alive =>
    exact goesOn (tracks.began start logged aimed wf' move row running alive)
  | removed _ named => exact absurd named tracks.unnamed
  | @replaced o new _ is after _ pending running alone _ unnamed _ =>
    subst after
    obtain ⟨l', left, versions', goes, tracks⟩ :=
      tracks.committed valid logged move is pending running alone unnamed
    exact ⟨l', left, versions', goes, tracks, fun o terminates => by cases is.symm.trans terminates⟩
  | deleted _ undeployed => exact absurd undeployed tracks.alive

end Steps

structure Chronicle (w : World) : Prop where
  paired : Paired w
  recorded : Recorded w
  early : ∀ version ∈ w.db.versions, version.previousInstanceId < w.drawn
  aimed : Aimed w

section Requests

variable {manifest : PackageId → RappLimits} {w w' s : World} {act : Act} {l : Lineage}
  {inst : RAppInstance} {versions : List RAppInstanceVersion} {first : InstanceId}

theorem Chronicle.empty (empty : w.db = {}) : Chronicle w := by
  refine ⟨.empty empty, ⟨?_, ?_, ?_, ?_, ?_⟩, ?_, ?_⟩ <;> simp [empty, Aimed, Db.row, Table.get]

theorem Chronicle.path (chronicle : Chronicle w) (free : ¬Chains w act)
    (path : Path manifest w act w s) : Logged w act s ∧ Aimed s := by
  induction path with
  | refl =>
    exact ⟨⟨⟨chronicle.paired, Nat.le_refl _, .inl rfl⟩, chronicle.recorded, chronicle.early⟩,
      chronicle.aimed⟩
  | tail path move ih =>
    obtain ⟨logged, aimed⟩ := ih
    exact ⟨logged.move chronicle.paired free move,
      aimed.move chronicle.paired logged.reached.paired.wf move⟩

theorem Chronicle.step (chronicle : Chronicle w) (free : ¬Chains w act)
    (step : Step manifest w act w') : Chronicle w' := by
  subst step
  obtain ⟨logged, aimed⟩ := chronicle.path free (after_path chronicle.paired.wf act)
  exact ⟨logged.reached.paired, logged.recorded,
    fun version mem => (logged.early version mem).trans_le logged.reached.drawn, aimed⟩

theorem Tracks.path (tracks : Tracks l w inst versions) (valid : l.Valid) (chronicle : Chronicle w)
    (free : ¬Chains w act) (kept : ∀ o, act ≠ .terminate o l.current)
    (path : Path manifest w act w s) : ∃ l' inst' versions', Goes act l l' ∧
      Tracks l' s inst' versions' ∧ ∀ o, act ≠ .terminate o l'.current := by
  induction path with
  | refl => exact ⟨l, inst, versions, .refl _ _, tracks, kept⟩
  | tail path move ih =>
    obtain ⟨l', inst', versions', goes, tracks, kept⟩ := ih
    obtain ⟨logged, aimed⟩ := chronicle.path free path
    obtain ⟨l'', inst'', versions'', goes', now⟩ :=
      tracks.move (valid.goes goes) chronicle.paired logged aimed kept move
    exact ⟨l'', inst'', versions'', goes.trans goes', now⟩

theorem Tracks.step (tracks : Tracks l w inst versions) (valid : l.Valid) (chronicle : Chronicle w)
    (free : ¬Chains w act) (kept : ∀ o, act ≠ .terminate o l.current)
    (step : Step manifest w act w') : ∃ l' inst' versions', Goes act l l' ∧
      Tracks l' w' inst' versions' := by
  subst step
  obtain ⟨l', inst', versions', goes, tracks, -⟩ :=
    tracks.path valid chronicle free kept (after_path chronicle.paired.wf act)
  exact ⟨l', inst', versions', goes, tracks⟩

structure Newborn (w s : World) (first : InstanceId) : Prop where
  late : (s.db.row first).isSome = true → w.drawn ≤ first
  unnamed : ¬Named s first
  alone : ∀ inst, s.db.row first = some inst →
    inst.state ≠ .undeployed ∧ inst.pendingUpgradeInstanceId = none

theorem Newborn.move {s' : World} {o : Outside} {body : CreateInstanceRequest}
    (newborn : Newborn w s first) (start : Paired w)
    (change : Change w (.create o body) s s') : Newborn w s' first := by
  have late : (s'.db.row first).isSome = true → w.drawn ≤ first := by
    intro there
    obtain ⟨found, there⟩ := Option.isSome_iff_exists.mp there
    rcases change.row start there with before | late
    · exact newborn.late before
    · exact late
  obtain ⟨-, unnamed, alone⟩ := newborn
  refine ⟨late, ?_, fun inst row => ?_⟩
  · rintro ⟨owner, other, there, names⟩
    cases change with
    | unchanged rows => exact unnamed ⟨owner, other, rows ▸ there, names⟩
    | rewritten rows row pending =>
      rcases row_put_cases (rows ▸ there) with ⟨rfl, rfl⟩ | ⟨-, before⟩
      · exact unnamed ⟨_, _, row, pending ▸ names⟩
      · exact unnamed ⟨owner, other, before, names⟩
    | created rows fresh =>
      rcases row_add_cases fresh (rows ▸ there) with ⟨rfl, rfl⟩ | ⟨-, before⟩
      · cases fresh.alone.symm.trans names
      · exact unnamed ⟨owner, other, before, names⟩
    | started _ _ _ _ _ _ _ is => rcases is with ⟨_, _, is, -⟩ | ⟨⟨_, _, is⟩, -⟩ <;> cases is
    | rolledBack rows _ _ _ back =>
      obtain ⟨-, ⟨rfl, rfl⟩ | ⟨-, before⟩⟩ := back_row (rows ▸ there)
      · cases back.symm.trans names
      · exact unnamed ⟨owner, other, before, names⟩
    | abandoned begunRow named pending => simp [start.not_abandoned begunRow named] at pending
    | committed is => cases is
    | deleted is => cases is
  · cases change with
    | unchanged rows => exact alone inst (rows ▸ row)
    | rewritten rows before pending state =>
      rcases row_put_cases (rows ▸ row) with ⟨rfl, rfl⟩ | ⟨-, was⟩
      · obtain ⟨alive, none⟩ := alone _ before
        refine ⟨fun undeployed => ?_, pending.trans none⟩
        rcases state undeployed with dead | ⟨-, o, is⟩
        · exact alive dead
        · cases is
      · exact alone inst was
    | created rows fresh =>
      rcases row_add_cases fresh (rows ▸ row) with ⟨rfl, rfl⟩ | ⟨-, before⟩
      · exact ⟨by simp [fresh.deploying], fresh.alone⟩
      · exact alone inst before
    | started _ _ _ _ _ _ _ is => rcases is with ⟨_, _, is, -⟩ | ⟨⟨_, _, is⟩, -⟩ <;> cases is
    | rolledBack rows _ _ running back =>
      obtain ⟨-, ⟨rfl, rfl⟩ | ⟨-, before⟩⟩ := back_row (rows ▸ row)
      · exact ⟨by simp [running], back⟩
      · exact alone inst before
    | abandoned begunRow named pending => simp [start.not_abandoned begunRow named] at pending
    | committed is => cases is
    | deleted is => cases is

theorem Tracks.born {o : Outside} {body : CreateInstanceRequest} (chronicle : Chronicle w)
    (step : Step manifest w (.create o body) w') (absent : w.db.row first = none)
    (row : w'.db.row first = some inst) :
    Tracks (.initial first inst.snapshot) w' inst [] := by
  subst step
  have free : ¬Chains w (.create o body) := fun chains => chains
  have path := @after_path manifest w chronicle.paired.wf (.create o body)
  have newborn : Newborn w (after manifest w (.create o body)) first := by
    have all : ∀ s, Path manifest w (.create o body) w s → Newborn w s first := by
      intro s path
      induction path with
      | refl =>
        refine ⟨by simp [absent], ?_, fun inst there => by cases absent.symm.trans there⟩
        rintro ⟨owner, other, there, names⟩
        have present := chronicle.paired.wf.pendingThere _ _ _ there names
        simp [absent] at present
      | tail path move ih =>
        exact ih.move chronicle.paired
          (move.change (chronicle.path free path).1.reached.paired.wf)
    exact all _ path
  obtain ⟨alive, alone⟩ := newborn.alone inst row
  have late := newborn.late (by simp [row])
  refine ⟨row, rfl, alive, alone, newborn.unnamed, ?_, List.nodup_nil, rfl, rfl, nofun⟩
  refine Table.get_eq_none fun version mem (same : version.instanceId = first) => ?_
  rcases (chronicle.path free path).1.reached.versions with versions | ⟨_, _, is⟩
  · have early := (chronicle.paired.made version (versions ▸ mem)).1
    exact absurd (same ▸ early) (Nat.not_lt.mpr late)
  · cases is

end Requests

open Runs

structure Shows (l : Lineage) (w : World) : Prop where
  live : ∃ inst, w.db.row l.current = some inst ∧ inst.snapshot = l.running ∧
    inst.pendingUpgradeInstanceId = l.attempt.map (·.id)
  attempt : ∀ attempt, l.attempt = some attempt →
    ∃ new, w.db.row attempt.id = some new ∧ new.snapshot = attempt.snapshot
  history : (versionHistory w.db l.current).map (·.succession) = l.commits
  target : (rollbackTarget w.db l.current).map (·.snapshot) = l.stack.head?
  ids : ∀ id ∈ l.ids, currentInstanceId w.db id = some l.current

section Runs

variable {manifest : PackageId → RappLimits} {start w : World} {l : Lineage} {inst : RAppInstance}
  {versions : List RAppInstanceVersion}

theorem Tracks.shows (tracks : Tracks l w inst versions) (recorded : Recorded w) : Shows l w where
  live := ⟨inst, tracks.row, tracks.running, tracks.pending⟩
  attempt attempt is := by
    obtain ⟨new, row, held, -⟩ := tracks.attempt attempt is
    exact ⟨new, row, held⟩
  history := by
    rw [versionHistory_linked tracks.linked tracks.distinct]
    exact tracks.commits
  target := by
    rw [rollbackTarget, versionHistory_linked tracks.linked tracks.distinct, ← tracks.stack,
      List.head?_map, List.head?_filter]
  ids id mem := by
    refine currentInstanceId_linked recorded tracks.linked tracks.distinct (by simp [tracks.row]) ?_
    rw [Lineage.ids, ← tracks.commits, List.map_map] at mem
    exact mem

structure Lived (first : InstanceId) (initial : Lineage) (trace : List (Runs.Step World Act))
    (w : World) (l : Lineage) : Prop where
  run : ∃ events, Run (fun l act l' => Goes act l l') initial events l ∧
    events.map (·.label) = trace.map (·.label)
  valid : l.Valid
  tracks : ∃ inst versions, Tracks l w inst versions
  first : first ∈ l.ids

/-- In every run in which no upgrade starts on the pending replacement of another, the lineage of an
instance that is created is an undo stack: while its current instance is not terminated, the version
history lists its commits, the rollback target is what it was before the last upgrade that is not
undone, its current instance runs what the stack says, and every id that was current leads there. -/
theorem rollbacks_undo {earlier later : List (Runs.Step World Act)} {t : Runs.Step World Act}
    {o : Outside} {body : CreateInstanceRequest} {first : InstanceId} (empty : start.db = {})
    (run : Run (Step manifest) start (earlier ++ t :: later) w)
    (free : ∀ t' ∈ earlier ++ t :: later, ¬Chains t'.before t'.label)
    (creates : t.label = .create o body) (absent : t.before.db.row first = none)
    (row : t.after.db.row first = some inst)
    (stays : ∀ t' ∈ later, ∀ o id, t'.label = .terminate o id →
      currentInstanceId t'.before.db first ≠ some id) :
    ∃ l events, Run (fun l act l' => Goes act l l') (.initial first inst.snapshot) events l ∧
      events.map (·.label) = later.map (·.label) ∧ l.Valid ∧ first ∈ l.ids ∧ Shows l w := by
  obtain ⟨before, step⟩ := run.split rfl
  have chronicle : Chronicle t.before := before.invariant_of_guarded Chronicle
    (fun w act => ¬Chains w act) (.empty empty) (fun _ _ _ chronicle free step =>
      chronicle.step free step) fun t' mem => free t' (List.mem_append_left _ mem)
  have freeNow := free t (by simp)
  rw [creates] at step freeNow
  have born := Tracks.born chronicle step absent row
  have all := (run.rest rfl).invariant_of_guarded_history
    (fun trace w => Chronicle w ∧ ∃ l, Lived first (.initial first inst.snapshot) trace w l)
    (fun _ w act => ¬Chains w act ∧ ∀ o id, act = .terminate o id →
      currentInstanceId w.db first ≠ some id)
    ⟨chronicle.step freeNow step, .initial first inst.snapshot, ⟨[], .refl, rfl⟩, nofun,
      ⟨inst, [], born⟩, List.mem_cons_self⟩ ?_ ?_
  · obtain ⟨chronicle, l, ⟨events, goes, labels⟩, valid, ⟨_, _, tracks⟩, mem⟩ := all
    exact ⟨l, events, goes, labels, valid, mem, tracks.shows chronicle.recorded⟩
  · rintro trace w act w' ⟨chronicle, l, ⟨events, goes, labels⟩, valid, ⟨_, _, tracks⟩, mem⟩
      ⟨free, stays⟩ step
    have current := (tracks.shows chronicle.recorded).ids first mem
    have kept : ∀ o, act ≠ .terminate o l.current := fun o is => stays o _ is current
    obtain ⟨l', inst', versions', next, tracks'⟩ := tracks.step valid chronicle free kept step
    refine ⟨chronicle.step free step, l', ⟨_, goes.snoc next, ?_⟩, valid.goes next,
      ⟨inst', versions', tracks'⟩, ?_⟩
    · simp [labels]
    · exact @Goes.keeps _ _ _ next (first ∈ ·.ids) mem fun _ _ _ mem step =>
        Lineage.next_ids step mem
  · intro earlier' t' later' same
    have mem : t' ∈ later := by simp [same]
    exact ⟨free t' (by simp [mem]), stays t' mem⟩

end Runs

section Example

def edited : List Act :=
  [.create calm { packageId := 1 }, .bootstrapComplete calm none 0, .upgrade calm 0 2,
    .resolve calm 0 true, .rollback calm 0, .setConfig none 9 (.obj [([], .null)]),
    .resolve calm 4 true]

theorem edited_free : ∀ t ∈ stepsOf (after unlimited) {} edited, ¬Chains t.before t.label := by
  intro t mem
  simp only [edited, stepsOf, List.mem_cons, List.not_mem_nil, or_false] at mem
  rcases mem with rfl | rfl | rfl | rfl | rfl | rfl | rfl
  · exact id
  · exact id
  · exact fun chains => not_named rfl chains.1
  · exact id
  · exact id
  · exact id
  · exact id

/-- The configuration that was set runs after the commit, and not the one before the upgrade. -/
theorem edited_rollback : ¬ ∀ (start w : World) (trace : List (Runs.Step World Act)),
    start.db = {} → Run (Step unlimited) start trace w →
      (∀ t ∈ trace, ¬Chains t.before t.label) → ∀ t ∈ trace, ∀ o old inst next new left,
        t.label = .resolve o old true → t.before.db.row old = some inst →
        inst.pendingUpgradeInstanceId = some next → t.before.db.row next = some new →
        new.rollbackOfVersionId.isSome = true → t.after.db.row old = none →
        t.after.db.row next = some left →
        (rollbackTarget t.before.db old).map (·.snapshot) = some left.snapshot := by
  intro holds
  have run := @run_follow _ _ (Step unlimited) (after unlimited) {} edited fun _ _ _ => rfl
  have last := holds _ _ _ rfl run edited_free _ (List.mem_of_getLast? (by rfl)) calm 4 _ 9 _ _ rfl
    rfl rfl rfl rfl rfl rfl
  have config := congrArg (Option.map fun found : Snapshot => found.settings.configuration) last
  cases config

theorem edited_undone : ∃ l events,
    Run (fun l act l' => Goes act l l')
        (.initial 0 ⟨1, ⟨some (.obj []), .shadow, none, none, none⟩⟩) events l ∧
      events.map (·.label) = edited.tail ∧ l.Valid ∧ 0 ∈ l.ids ∧
      Shows l (edited.foldl (after unlimited) {}) := by
  have run := @run_follow _ _ (Step unlimited) (after unlimited) {} edited fun _ _ _ => rfl
  exact @rollbacks_undo unlimited {} _ _ [] _ _ calm { packageId := 1 } 0 rfl run edited_free rfl rfl
    rfl (by
      intro t mem o id is
      simp only [stepsOf, List.mem_cons, List.not_mem_nil, or_false] at mem
      rcases mem with rfl | rfl | rfl | rfl | rfl | rfl <;> cases is)

end Example

end Smo.RappMgmt
