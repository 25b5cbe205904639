import Smo.RappMgmt.Paths

/-! The two rows of an upgrade, over runs of requests one at a time. A replacement that is RUNNING
on its own may be upgraded while the upgrade that made it is still pending; without such chains
every upgrade ends with exactly one of its rows, and the database refuses no write. -/
namespace Smo.RappMgmt

open Runs

def Named (w : World) (id : InstanceId) : Prop :=
  ∃ owner inst, w.db.row owner = some inst ∧ inst.pendingUpgradeInstanceId = some id

/-- An upgrade starts on a RUNNING instance that is the pending replacement of another. -/
def Chains (w : World) : Act → Prop
  | .upgrade o id packageId => Named w id ∧ ∃ inst, loads o w id = some inst ∧
      inst.state = .running ∧ Provisions o w packageId inst.settings
  | _ => False

structure Pairs (w : World) : Prop where
  upgrading : ∀ id inst, w.db.row id = some inst →
    (inst.state = .upgrading ↔ inst.pendingUpgradeInstanceId.isSome)
  replacement : ∀ id inst next, w.db.row id = some inst →
    inst.pendingUpgradeInstanceId = some next → ∃ new, w.db.row next = some new ∧
      new.state ≠ .undeployed ∧ new.pendingUpgradeInstanceId = none ∧
      ∀ id' other, w.db.row id' = some other → other.pendingUpgradeInstanceId = some next → id' = id
  references : w.db.references = true

def Replaced (w : World) (old new : InstanceId) : Prop :=
  ∃ version ∈ w.db.versions, version.previousInstanceId = old ∧ version.instanceId = new

/-- How the upgrades that were pending before a request are after it: one that ended has left one
of its rows, no replacement of a row that is gone is left but by a commit, and the database refused
no write. -/
structure Ends (manifest : PackageId → RappLimits) (w : World) (act : Act) (w' : World) : Prop where
  one : ∀ old inst new, w.db.row old = some inst → inst.pendingUpgradeInstanceId = some new →
    (∀ inst', w'.db.row old = some inst' → inst'.pendingUpgradeInstanceId ≠ some new) →
      Xor ((w'.db.row old).isSome = true) ((w'.db.row new).isSome = true)
  orphan : ∀ old inst new, w.db.row old = some inst → inst.pendingUpgradeInstanceId = some new →
    w'.db.row old = none → (w'.db.row new).isSome = true → Replaced w' old new
  intact : ∀ s, request manifest act w ≠ .error .integrity s

theorem not_named {w : World} {id : InstanceId}
    (none : w.db.instances.any (·.pendingUpgradeInstanceId = some id) = false) : ¬Named w id := by
  rintro ⟨owner, other, there, names⟩
  have not := List.any_eq_false.mp none other (Table.mem_of_get there)
  simp [names] at not

structure Paired (w : World) : Prop where
  wf : Wf w
  live : ∀ id new, Named w id → w.db.row id = some new →
    new.state ≠ .undeployed ∧ new.pendingUpgradeInstanceId = none
  made : ∀ version ∈ w.db.versions, version.instanceId < w.drawn ∧ ¬Named w version.instanceId

theorem Paired.pairs {w : World} (paired : Paired w) : Pairs w where
  upgrading := paired.wf.upgrading
  replacement id inst next row pending := by
    obtain ⟨new, newRow⟩ := Option.isSome_iff_exists.mp (paired.wf.pendingThere _ _ next row pending)
    obtain ⟨state, alone⟩ := paired.live next new ⟨id, inst, row, pending⟩ newRow
    exact ⟨new, newRow, state, alone,
      fun id' other there names => paired.wf.owners _ _ _ _ next there row names pending⟩
  references := paired.wf.references

theorem Paired.free {w : World} (paired : Paired w) (act : Act) : ¬Stuck act w := by
  rintro ⟨id, other, gone, row, there, names, goneRow, is⟩
  obtain ⟨state, alone⟩ := paired.live gone row ⟨id, other, there, names⟩ goneRow
  rcases is with ⟨-, pending⟩ | undeployed
  · simp [alone] at pending
  · exact state undeployed

section Moves

variable {manifest : PackageId → RappLimits} {begun s s' : World} {act : Act} {o : Outside}
  {inst left old new : RAppInstance} {id : InstanceId}

theorem Move.drawn (move : Move manifest begun act s s') : s.drawn ≤ s'.drawn := by
  cases move with
  | calls calls => exact calls.drawn
  | refused is same takes row names killed more => exact more
  | committed is row pending newRow ran takes same unnamed => exact Nat.le_succ _
  | _ => exact Nat.le_refl _

inductive Change (begun : World) (act : Act) (s s' : World) : Prop
  | unchanged (rows : s'.db = s.db)
  | rewritten {inst left : RAppInstance} (rows : s'.db = s.db.put left)
      (row : s.db.row left.instanceId = some inst)
      (pending : left.pendingUpgradeInstanceId = inst.pendingUpgradeInstanceId)
      (state : left.state = .undeployed → inst.state = .undeployed ∨
        ¬Named s left.instanceId ∧ ∃ o, act = .terminate o left.instanceId)
  | created {inst : RAppInstance} (rows : s'.db = s.db.add inst) (fresh : Fresh s inst)
      (unused : begun.drawn ≤ inst.instanceId)
  | started {old left new : RAppInstance} (rows : s'.db = (s.db.put left).add new)
      (row : s.db.row left.instanceId = some old) (running : old.state = .running)
      (pending : left.pendingUpgradeInstanceId = some new.instanceId) (fresh : Fresh s new)
      (unused : begun.drawn ≤ new.instanceId)
      (apart : Named s left.instanceId → Named begun left.instanceId)
      (is : (∃ o package, act = .upgrade o left.instanceId package ∧
          loads o begun left.instanceId = some old ∧
          (Provisions o begun package old.settings ∨ ∃ inst,
            begun.db.row left.instanceId = some inst ∧ inst.pendingUpgradeInstanceId.isSome = true)) ∨
        (∃ o id, act = .rollback o id) ∧ (rollbackTarget s.db left.instanceId).isSome = true)
  | rolledBack {old back new : RAppInstance} (rows : s'.db = (s.db.put back).remove new.instanceId)
      (row : s.db.row back.instanceId = some old)
      (pending : old.pendingUpgradeInstanceId = some new.instanceId)
      (running : back.state = .running) (alone : back.pendingUpgradeInstanceId = none)
  | abandoned {old : RAppInstance} (begunRow : begun.db.row old.instanceId = some old)
      (named : Named begun old.instanceId) (pending : old.pendingUpgradeInstanceId.isSome = true)
  | committed {o : Outside} {old new : RAppInstance} (is : act = .resolve o old.instanceId true)
      (after : s' = replaced o s old new) (row : s.db.row old.instanceId = some old)
      (pending : old.pendingUpgradeInstanceId = some new.instanceId)
      (newRow : ∃ found, s.db.row new.instanceId = some found ∧ found.pendingUpgradeInstanceId = none)
      (running : new.state = .running) (alone : new.pendingUpgradeInstanceId = none) (same : begun.db = s.db)
  | deleted {o : Outside} {inst : RAppInstance} (is : act = .delete o inst.instanceId)
      (rows : s'.db = s.db.remove inst.instanceId) (row : s.db.row inst.instanceId = some inst)
      (undeployed : inst.state = .undeployed)

theorem Move.change (move : Move manifest begun act s s') (wf : Wf s) : Change begun act s s' := by
  cases move with
  | calls calls => exact .unchanged calls.db
  | passed time is => exact .unchanged rfl
  | created inst fresh unused plain => exact .created rfl fresh unused
  | rotated is row loaded issued deploying drawn fresh => exact .rewritten rfl row rfl .inl
  | bootstrapped is row deploying loaded took safe => exact .rewritten rfl row rfl nofun
  | recovered is row faulted => exact .rewritten rfl row rfl nofun
  | crashed is row running own loaded => exact .rewritten rfl row rfl nofun
  | @started o old new restore is row running loaded named fresh unused replaces made =>
    refine .started rfl row running rfl fresh unused ?_ ?_
    · rintro ⟨owner, other, there, names⟩
      exact ⟨owner, other, named owner other there names, names⟩
    · rcases is with ⟨package, is, same, rfl⟩ | ⟨id, version, is, rfl, target, -⟩
      · exact .inl ⟨o, package, is, loaded, same ▸ made⟩
      · refine .inr ⟨⟨o, id, is⟩, ?_⟩
        show (rollbackTarget s.db old.instanceId).isSome = true
        rw [target]
        rfl
  | rolledBack row pending newRow => exact .rolledBack rfl row pending rfl rfl
  | abandoned begunRow owner gone pending newRow unnamed =>
    exact .abandoned begunRow owner (by simp [pending])
  | @committed o old found new is row pending newRow ran takes same unnamed =>
    have alone : found.pendingUpgradeInstanceId = none :=
      wf.alone newRow (by rcases ran with ⟨state, -⟩ | ⟨state, -⟩ <;> simp [state])
    rcases ran with ⟨running, rfl⟩ | ⟨deploying, set, rfl, -⟩
    · exact .committed is rfl row pending ⟨_, newRow, alone⟩ running alone same
    · exact .committed is rfl row pending ⟨_, newRow, alone⟩ rfl alone same
  | @terminated o inst left row legal unowned same undeployed revoked alone is plain =>
    refine .rewritten rfl (same.symm ▸ row) alone fun _ => .inr ⟨?_, o, same.symm ▸ is⟩
    rintro ⟨owner, other, there, names⟩
    exact unowned owner other there (same ▸ names)
  | deleted is row undeployed unnamed => exact .deleted is rfl row undeployed
  | configured is row => exact .rewritten rfl row rfl .inl
  | stopped row id => exact .unchanged rfl
  | lifted is row id applied => exact .unchanged rfl
  | refused is same takes row names killed more => exact .unchanged rfl

theorem started_row (fresh : Fresh s new) {found : RAppInstance}
    (there : ((s.db.put left).add new).row id = some found) :
    id = new.instanceId ∧ found = new ∨ id = left.instanceId ∧ found = left ∨
      id ≠ left.instanceId ∧ s.db.row id = some found := by
  have absent : (s.db.put left).row new.instanceId = none := by
    rw [← Option.not_isSome_iff_eq_none, isSome_put, fresh.absent]
    simp
  rw [Db.row_add absent] at there
  split_ifs at there with same
  · exact .inl ⟨same.symm, (Option.some.inj there).symm⟩
  · exact .inr (row_put_cases there)

theorem back_row {back found : RAppInstance} {gone : InstanceId}
    (there : ((s.db.put back).remove gone).row id = some found) :
    id ≠ gone ∧ (id = back.instanceId ∧ found = back ∨
      id ≠ back.instanceId ∧ s.db.row id = some found) := by
  obtain ⟨apart, there⟩ := @row_remove_some { s with db := s.db.put back } _ _ _ there
  exact ⟨apart, row_put_cases there⟩

structure Reached (begun : World) (act : Act) (s : World) : Prop where
  paired : Paired s
  drawn : begun.drawn ≤ s.drawn
  versions : s.db.versions = begun.db.versions ∨ ∃ o id, act = .resolve o id true

theorem Paired.kept (paired : Paired s) (wf : Wf s') (drawn : s.drawn ≤ s'.drawn)
    (versions : s'.db.versions = s.db.versions) (named : ∀ id, Named s' id → Named s id)
    (live : ∀ id new, Named s id → s'.db.row id = some new →
      s.db.row id = some new ∨ new.state ≠ .undeployed ∧ new.pendingUpgradeInstanceId = none) :
    Paired s' where
  wf := wf
  live id new names row := by
    rcases live id new (named id names) row with before | alive
    · exact paired.live id new (named id names) before
    · exact alive
  made version mem := by
    rw [versions] at mem
    obtain ⟨old, unnamed⟩ := paired.made version mem
    exact ⟨old.trans_le drawn, fun names => unnamed (named _ names)⟩

theorem Reached.rewritten (reached : Reached begun act s) (wf : Wf s') (drawn : s.drawn ≤ s'.drawn)
    (rows : s'.db = s.db.put left) (row : s.db.row left.instanceId = some inst)
    (pending : left.pendingUpgradeInstanceId = inst.pendingUpgradeInstanceId)
    (state : left.state = .undeployed → inst.state = .undeployed ∨ ¬Named s left.instanceId) :
    Paired s' := by
  refine reached.paired.kept wf drawn (by rw [rows]; rfl) ?_ ?_
  · rintro id ⟨owner, other, there, names⟩
    rw [rows] at there
    rcases row_put_cases there with ⟨rfl, rfl⟩ | ⟨-, before⟩
    · exact ⟨_, inst, row, pending ▸ names⟩
    · exact ⟨owner, other, before, names⟩
  · intro id new names there
    rw [rows] at there
    rcases row_put_cases there with ⟨rfl, rfl⟩ | ⟨-, before⟩
    · obtain ⟨alive, alone⟩ := reached.paired.live _ _ names row
      refine .inr ⟨fun undeployed => ?_, pending.trans alone⟩
      rcases state undeployed with dead | unnamed
      · exact alive dead
      · exact unnamed names
    · exact .inl before

theorem Reached.rolledBack {back : RAppInstance} (reached : Reached begun act s) (wf : Wf s')
    (drawn : s.drawn ≤ s'.drawn) {gone : InstanceId} (rows : s'.db = (s.db.put back).remove gone)
    (running : back.state = .running) (alone : back.pendingUpgradeInstanceId = none) : Paired s' := by
  refine reached.paired.kept wf drawn (by rw [rows]; rfl) ?_ ?_
  · rintro id ⟨owner, other, there, names⟩
    obtain ⟨-, ⟨-, rfl⟩ | ⟨-, before⟩⟩ := back_row (rows ▸ there)
    · cases alone.symm.trans names
    · exact ⟨owner, other, before, names⟩
  · intro id new names there
    obtain ⟨-, ⟨-, rfl⟩ | ⟨-, before⟩⟩ := back_row (rows ▸ there)
    · exact .inr ⟨by simp [running], alone⟩
    · exact .inl before

theorem Paired.target_unnamed (paired : Paired s) (target : (rollbackTarget s.db id).isSome = true) :
    ¬Named s id := by
  obtain ⟨version, is⟩ := Option.isSome_iff_exists.mp target
  have mem := List.mem_of_find?_eq_some is
  simp only [versionHistory] at mem
  cases made : versionThatMade s.db id with
  | none => simp [made, walked] at mem
  | some first =>
    have key := Table.key_of_get made
    exact key ▸ (paired.made first (Table.mem_of_get made)).2

theorem Reached.started (reached : Reached begun act s) (start : Paired begun)
    (free : ¬Chains begun act) (wf : Wf s') (drawn : s.drawn ≤ s'.drawn)
    (rows : s'.db = (s.db.put left).add new) (row : s.db.row left.instanceId = some old)
    (running : old.state = .running) (pending : left.pendingUpgradeInstanceId = some new.instanceId)
    (fresh : Fresh s new) (unused : begun.drawn ≤ new.instanceId)
    (apart : Named s left.instanceId → Named begun left.instanceId)
    (is : (∃ o package, act = .upgrade o left.instanceId package ∧
        loads o begun left.instanceId = some old ∧
        (Provisions o begun package old.settings ∨ ∃ inst,
          begun.db.row left.instanceId = some inst ∧ inst.pendingUpgradeInstanceId.isSome = true)) ∨
      (∃ o id, act = .rollback o id) ∧ (rollbackTarget s.db left.instanceId).isSome = true) :
    Paired s' := by
  have unnamed : ¬Named s left.instanceId := by
    intro names
    rcases is with ⟨o, package, rfl, loaded, makes | ⟨inst, begunRow, owns⟩⟩ | ⟨-, target⟩
    · exact free ⟨apart names, old, loaded, running, makes⟩
    · simp [(start.live _ _ (apart names) begunRow).2] at owns
    · exact reached.paired.target_unnamed target names
  have named : ∀ id, Named s' id → id = new.instanceId ∨ Named s id := by
    rintro id ⟨owner, other, there, names⟩
    rcases started_row fresh (rows ▸ there) with ⟨rfl, rfl⟩ | ⟨rfl, rfl⟩ | ⟨-, before⟩
    · cases fresh.alone.symm.trans names
    · exact .inl (Option.some.inj (names.symm.trans pending))
    · exact .inr ⟨owner, other, before, names⟩
  refine ⟨wf, fun id row' names there => ?_, fun version mem => ?_⟩
  · rcases started_row fresh (rows ▸ there) with ⟨rfl, rfl⟩ | ⟨rfl, rfl⟩ | ⟨-, before⟩
    · exact ⟨by simp [fresh.deploying], fresh.alone⟩
    · rcases named _ names with same | names
      · have there := fresh.absent
        rw [← same, row] at there
        cases there
      · exact absurd names unnamed
    · rcases named _ names with rfl | names
      · cases fresh.absent.symm.trans before
      · exact reached.paired.live _ _ names before
  · rw [rows] at mem
    have mem : version ∈ s.db.versions := mem
    obtain ⟨old, unnamed⟩ := reached.paired.made version mem
    refine ⟨old.trans_le drawn, fun names => ?_⟩
    rcases named _ names with same | names
    · rcases reached.versions with versions | ⟨o, id, rfl⟩
      · have early := (start.made version (versions ▸ mem)).1
        exact absurd (same ▸ early) (Nat.not_lt.mpr unused)
      · rcases is with ⟨o, package, is, -⟩ | ⟨⟨o, id, is⟩, -⟩ <;> cases is
    · exact unnamed names

theorem recordVersion_mem {db : Db} {version found : RAppInstanceVersion} {undone : Option VersionId}
    (mem : found ∈ (recordVersion db version undone).versions) :
    ∃ listed ∈ db.versions ++ [version], listed.instanceId = found.instanceId ∧
      listed.previousInstanceId = found.previousInstanceId := by
  cases undone with
  | none => exact ⟨found, mem, rfl, rfl⟩
  | some id =>
    obtain ⟨before, there, rfl⟩ := List.mem_map.mp mem
    refine ⟨before, there, ?_⟩
    dsimp only
    split
    · exact ⟨rfl, rfl⟩
    · exact ⟨rfl, rfl⟩

theorem recordVersion_keeps {db : Db} {version found : RAppInstanceVersion}
    (undone : Option VersionId) (mem : found ∈ db.versions ++ [version]) :
    ∃ kept ∈ (recordVersion db version undone).versions,
      kept.previousInstanceId = found.previousInstanceId ∧ kept.instanceId = found.instanceId := by
  cases undone with
  | none => exact ⟨found, mem, rfl, rfl⟩
  | some id =>
    refine ⟨_, List.mem_map_of_mem mem, ?_⟩
    dsimp only
    split
    · exact ⟨rfl, rfl⟩
    · exact ⟨rfl, rfl⟩

theorem Paired.committed (paired : Paired s) (wf : Wf (replaced o s old new))
    (row : s.db.row old.instanceId = some old)
    (pending : old.pendingUpgradeInstanceId = some new.instanceId)
    (alone : new.pendingUpgradeInstanceId = none)
    {found : RAppInstance} (newRow : s.db.row new.instanceId = some found) : Paired (replaced o s old new) := by
  have named : ∀ id, Named (replaced o s old new) id → id ≠ new.instanceId ∧ Named s id := by
    rintro id ⟨owner, other, there, names⟩
    obtain ⟨left, ⟨rfl, rfl⟩ | ⟨-, before⟩⟩ := replaced_row there
    · cases alone.symm.trans names
    · refine ⟨?_, owner, other, before, names⟩
      rintro rfl
      exact left (paired.wf.owners _ _ _ _ _ before row names pending)
  refine ⟨wf, fun id row' names there => ?_, fun version mem => ?_⟩
  · obtain ⟨-, ⟨rfl, rfl⟩ | ⟨-, before⟩⟩ := replaced_row there
    · exact absurd rfl (named _ names).1
    · exact paired.live _ _ (named _ names).2 before
  · obtain ⟨listed, mem, same, -⟩ := recordVersion_mem mem
    rw [← same]
    rcases List.mem_append.mp mem with before | recorded
    · obtain ⟨old, unnamed⟩ := paired.made listed before
      exact ⟨old.trans (Nat.lt_succ_self _), fun names => unnamed (named _ names).2⟩
    · obtain rfl := List.mem_singleton.mp recorded
      refine ⟨?_, fun names => (named _ names).1 rfl⟩
      exact (paired.wf.ids _ _ newRow).trans (Nat.lt_succ_self _)

theorem Reached.move (reached : Reached begun act s) (start : Paired begun)
    (free : ¬Chains begun act) (move : Move manifest begun act s s') : Reached begun act s' := by
  have wf := move.wf reached.paired.wf
  have drawn := move.drawn
  have more := reached.drawn.trans drawn
  cases move.change reached.paired.wf with
  | unchanged rows =>
    refine ⟨reached.paired.kept wf drawn (by rw [rows]) ?_ fun id new _ there => .inl (rows ▸ there),
      more, rows ▸ reached.versions⟩
    exact fun id ⟨owner, other, there, names⟩ => ⟨owner, other, rows ▸ there, names⟩
  | rewritten rows row pending state =>
    refine ⟨reached.rewritten wf drawn rows row pending fun undeployed => ?_, more,
      rows ▸ reached.versions⟩
    rcases state undeployed with dead | ⟨unnamed, -⟩
    · exact .inl dead
    · exact .inr unnamed
  | @created inst rows fresh unused =>
    refine ⟨reached.paired.kept wf drawn (by rw [rows]; rfl) ?_ fun id new _ there => ?_, more,
      rows ▸ reached.versions⟩
    · rintro id ⟨owner, other, there, names⟩
      rcases row_add_cases fresh (rows ▸ there) with ⟨rfl, rfl⟩ | ⟨-, before⟩
      · cases fresh.alone.symm.trans names
      · exact ⟨owner, other, before, names⟩
    · rcases row_add_cases fresh (rows ▸ there) with ⟨rfl, rfl⟩ | ⟨-, before⟩
      · exact .inr ⟨by simp [fresh.deploying], fresh.alone⟩
      · exact .inl before
  | started rows row running pending fresh unused apart is =>
    exact ⟨reached.started start free wf drawn rows row running pending fresh unused apart is, more,
      rows ▸ reached.versions⟩
  | rolledBack rows row pending running alone =>
    exact ⟨reached.rolledBack wf drawn rows running alone, more, rows ▸ reached.versions⟩
  | abandoned begunRow named pending =>
    simp [(start.live _ _ named begunRow).2] at pending
  | committed is after row pending newRow running alone same =>
    subst after
    obtain ⟨_, newRow, -⟩ := newRow
    exact ⟨reached.paired.committed wf row pending alone newRow, more, .inr ⟨_, _, is⟩⟩
  | deleted is rows row undeployed =>
    refine ⟨reached.paired.kept wf drawn (by rw [rows]; rfl) ?_ fun id new _ there => ?_, more,
      rows ▸ reached.versions⟩
    · rintro id ⟨owner, other, there, names⟩
      exact ⟨owner, other, (row_remove_some (rows ▸ there)).2, names⟩
    · exact .inl (row_remove_some (rows ▸ there)).2

/-- The two rows of an upgrade that was pending when a request began: it still is, or the old row
is back alone, or the commit left the replacement. -/
inductive Fate (act : Act) (s : World) (id next : InstanceId) : Prop
  | pending {old : RAppInstance} (row : s.db.row id = some old)
      (pending : old.pendingUpgradeInstanceId = some next)
  | back {old : RAppInstance} (row : s.db.row id = some old) (unnamed : ¬Named s id)
      (gone : s.db.row next = none)
      (state : old.state = .undeployed → ∃ o id, act = .terminate o id)
  | replaced {o : Outside} {new : RAppInstance} (gone : s.db.row id = none)
      (row : s.db.row next = some new) (unnamed : ¬Named s next) (is : act = .resolve o id true)
      (made : Replaced s id next)

inductive Left (begun : World) (act : Act) (s s' : World) (inst : RAppInstance) (id : InstanceId) :
    Prop
  | kept {inst' : RAppInstance} (row : s'.db.row id = some inst')
      (pending : inst'.pendingUpgradeInstanceId = inst.pendingUpgradeInstanceId)
      (state : inst'.state = .undeployed → inst.state = .undeployed ∨ ∃ o, act = .terminate o id)
  | back {inst' : RAppInstance} {gone : InstanceId} (row : s'.db.row id = some inst')
      (running : inst'.state = .running) (pending : inst.pendingUpgradeInstanceId = some gone)
      (removed : s'.db.row gone = none)
  | started {inst' : RAppInstance} (row : s'.db.row id = some inst') (running : inst.state = .running)
      (upgrading : inst'.state ≠ .undeployed)
  | removed (gone : s'.db.row id = none) (named : Named s id)
  | replaced {o : Outside} {new : RAppInstance} (gone : s'.db.row id = none)
      (is : act = .resolve o id true) (after : s' = RappMgmt.replaced o s inst new)
      (same : begun.db = s.db) (pending : inst.pendingUpgradeInstanceId = some new.instanceId)
      (running : new.state = .running) (alone : new.pendingUpgradeInstanceId = none)
      (row : (s'.db.row new.instanceId).isSome = true) (unnamed : ¬Named s' new.instanceId)
      (made : Replaced s' id new.instanceId)
  | deleted {o : Outside} (is : act = .delete o id) (undeployed : inst.state = .undeployed)

theorem Paired.not_abandoned (start : Paired begun) (begunRow : begun.db.row id = some old)
    (named : Named begun id) : old.pendingUpgradeInstanceId.isSome = false := by
  rw [(start.live _ _ named begunRow).2]
  rfl

theorem Change.row (change : Change begun act s s') (start : Paired begun) {found : RAppInstance}
    (row : s'.db.row id = some found) : (s.db.row id).isSome = true ∨ begun.drawn ≤ id := by
  cases change with
  | unchanged rows => exact .inl (by rw [← rows, row]; rfl)
  | rewritten rows there pending state =>
    rw [rows] at row
    exact .inl (by rw [← isSome_put, row]; rfl)
  | created rows fresh unused =>
    rcases row_add_cases fresh (rows ▸ row) with ⟨rfl, rfl⟩ | ⟨-, before⟩
    · exact .inr unused
    · exact .inl (by simp [before])
  | started rows there running pending fresh unused apart is =>
    rcases started_row fresh (rows ▸ row) with ⟨rfl, rfl⟩ | ⟨rfl, rfl⟩ | ⟨-, before⟩
    · exact .inr unused
    · exact .inl (by simp [there])
    · exact .inl (by simp [before])
  | rolledBack rows there pending running alone =>
    obtain ⟨-, ⟨rfl, rfl⟩ | ⟨-, before⟩⟩ := back_row (rows ▸ row)
    · exact .inl (by simp [there])
    · exact .inl (by simp [before])
  | abandoned begunRow named pending => simp [start.not_abandoned begunRow named] at pending
  | committed is after there pending newRow running alone same =>
    subst after
    obtain ⟨-, ⟨rfl, rfl⟩ | ⟨-, before⟩⟩ := replaced_row row
    · obtain ⟨found, newRow, -⟩ := newRow
      exact .inl (newRow ▸ rfl)
    · exact .inl (by simp [before])
  | deleted is rows there undeployed =>
    exact .inl (by simp [(row_remove_some (rows ▸ row)).2])

theorem Change.pending (change : Change begun act s s') (start : Paired begun) {owner : InstanceId}
    {other : RAppInstance} (there : s'.db.row owner = some other)
    (names : other.pendingUpgradeInstanceId = some id) :
    (∃ before, s.db.row owner = some before ∧ before.pendingUpgradeInstanceId = some id) ∨
      begun.drawn ≤ id ∧ s.db.row id = none := by
  cases change with
  | unchanged rows => exact .inl ⟨other, rows ▸ there, names⟩
  | rewritten rows row pending state =>
    rcases row_put_cases (rows ▸ there) with ⟨rfl, rfl⟩ | ⟨-, before⟩
    · exact .inl ⟨_, row, pending ▸ names⟩
    · exact .inl ⟨other, before, names⟩
  | created rows fresh unused =>
    rcases row_add_cases fresh (rows ▸ there) with ⟨rfl, rfl⟩ | ⟨-, before⟩
    · cases fresh.alone.symm.trans names
    · exact .inl ⟨other, before, names⟩
  | started rows row running pending fresh unused apart is =>
    rcases started_row fresh (rows ▸ there) with ⟨rfl, rfl⟩ | ⟨rfl, rfl⟩ | ⟨-, before⟩
    · cases fresh.alone.symm.trans names
    · obtain rfl := Option.some.inj (pending.symm.trans names)
      exact .inr ⟨unused, fresh.absent⟩
    · exact .inl ⟨other, before, names⟩
  | rolledBack rows row pending running alone =>
    obtain ⟨-, ⟨rfl, rfl⟩ | ⟨-, before⟩⟩ := back_row (rows ▸ there)
    · cases alone.symm.trans names
    · exact .inl ⟨other, before, names⟩
  | abandoned begunRow named pending => simp [start.not_abandoned begunRow named] at pending
  | committed is after row pending newRow running alone same =>
    subst after
    obtain ⟨-, ⟨rfl, rfl⟩ | ⟨-, before⟩⟩ := replaced_row there
    · cases alone.symm.trans names
    · exact .inl ⟨other, before, names⟩
  | deleted is rows row undeployed =>
    exact .inl ⟨other, (row_remove_some (rows ▸ there)).2, names⟩

theorem Change.named (change : Change begun act s s') (start : Paired begun) (names : Named s' id) :
    Named s id ∨ begun.drawn ≤ id := by
  obtain ⟨owner, other, there, names⟩ := names
  rcases change.pending start there names with ⟨before, row, names⟩ | ⟨late, -⟩
  · exact .inl ⟨owner, before, row, names⟩
  · exact .inr late

theorem row_put_other {id : InstanceId} (apart : id ≠ left.instanceId) :
    (s.db.put left).row id = s.db.row id := by
  rw [Db.row_put, if_neg apart.symm]

theorem row_put_there (row : s.db.row left.instanceId = some inst) :
    (s.db.put left).row left.instanceId = some left := Db.row_put_self row

theorem Change.of_row (change : Change begun act s s') (start : Paired begun) (wf : Wf s)
    (wf' : Wf s') (row : s.db.row id = some inst) : Left begun act s s' inst id := by
  have stays : s'.db.row id = some inst → Left begun act s s' inst id := fun there =>
    .kept there rfl .inl
  cases change with
  | unchanged rows => exact stays (rows ▸ row)
  | @rewritten inst left rows there pending state =>
    by_cases same : id = left.instanceId
    · subst same
      obtain rfl := Option.some.inj (row.symm.trans there)
      refine .kept (rows ▸ row_put_there there) pending fun undeployed => ?_
      rcases state undeployed with dead | ⟨-, is⟩
      · exact .inl dead
      · exact .inr is
    · exact stays (rows ▸ (row_put_other same).trans row)
  | @created inst rows fresh unused =>
    refine stays ?_
    rw [rows, Db.row_add fresh.absent, if_neg]
    · exact row
    · rintro rfl
      cases fresh.absent.symm.trans row
  | @started old left new rows there running pending fresh unused apart is =>
    have old : id ≠ new.instanceId := by
      rintro rfl
      cases fresh.absent.symm.trans row
    have absent : (s.db.put left).row new.instanceId = none := by
      rw [← Option.not_isSome_iff_eq_none, isSome_put, fresh.absent]
      simp
    have added : s'.db.row id = (s.db.put left).row id := by
      rw [rows, Db.row_add absent, if_neg old.symm]
    by_cases same : id = left.instanceId
    · subst same
      obtain rfl := Option.some.inj (row.symm.trans there)
      have now := added.trans (row_put_there there)
      refine .started now running fun undeployed => ?_
      have upgrading := (wf'.upgrading _ _ now).mpr (by simp [pending])
      cases upgrading.symm.trans undeployed
    · exact stays (added.trans ((row_put_other same).trans row))
  | @rolledBack old back new rows there pending running alone =>
    have removed : s'.db.row id = if id = new.instanceId then none else (s.db.put back).row id := by
      rw [rows]
      exact Db.row_remove _
    by_cases gone : id = new.instanceId
    · refine .removed (by rw [removed, if_pos gone]) ⟨_, old, there, ?_⟩
      rw [pending, gone]
    rw [if_neg gone] at removed
    by_cases same : id = back.instanceId
    · subst same
      obtain rfl := Option.some.inj (row.symm.trans there)
      refine .back (removed.trans (row_put_there there)) running pending ?_
      rw [rows]
      exact (Db.row_remove _).trans (if_pos rfl)
    · exact stays (removed.trans ((row_put_other same).trans row))
  | abandoned begunRow named pending => simp [start.not_abandoned begunRow named] at pending
  | @committed o old new is after there pending newRow running alone same =>
    subst after
    obtain ⟨found, newRow, foundAlone⟩ := newRow
    have apart : old.instanceId ≠ new.instanceId := fun same =>
      wf.apart _ _ there (pending.trans (congrArg some same.symm))
    let left : RAppInstance := { new with lastTeardown := some (released o old .upgradeCommit) }
    have removed : ∀ id, (replaced o s old new).db.row id =
        if id = old.instanceId then none else (s.db.put left).row id := fun id =>
      (Db.row_remove _).trans (by rw [Db.row_recordVersion _ _])
    by_cases gone : id = old.instanceId
    · subst gone
      obtain rfl := Option.some.inj (row.symm.trans there)
      have left' : ((replaced o s inst new).db.row new.instanceId).isSome = true := by
        rw [removed, if_neg apart.symm]
        exact isSome_put.trans (by simp [newRow])
      refine .replaced (by rw [removed, if_pos rfl]) is rfl same pending running alone left'
        ?_ ?_
      · rintro ⟨owner, other, found, names⟩
        obtain ⟨left, ⟨-, rfl⟩ | ⟨-, before⟩⟩ := replaced_row found
        · cases alone.symm.trans names
        · exact left (wf.owners _ _ _ _ _ before there names pending)
      · obtain ⟨version, mem, is⟩ := @recordVersion_keeps (s.db.put left)
          (versionOf s.drawn inst left) _ left.rollbackOfVersionId
          (List.mem_append_right _ List.mem_cons_self)
        exact ⟨version, mem, is⟩
    · by_cases same : id = new.instanceId
      · subst same
        obtain rfl := Option.some.inj (row.symm.trans newRow)
        have there : (s.db.put left).row new.instanceId = some left := row_put_there newRow
        refine .kept ((removed _).trans ((if_neg gone).trans there)) (alone.trans foundAlone.symm) ?_
        exact fun undeployed => by cases running.symm.trans undeployed
      · have there : (s.db.put left).row id = some inst := (@row_put_other s left id same).trans row
        exact stays ((removed id).trans ((if_neg gone).trans there))
  | @deleted o gone is rows there undeployed =>
    by_cases same : id = gone.instanceId
    · subst same
      obtain rfl := Option.some.inj (row.symm.trans there)
      exact .deleted is undeployed
    · refine stays ?_
      rw [rows, Db.row_remove, if_neg same]
      exact row

theorem Change.replaced (change : Change begun act s s') {next : InstanceId}
    (made : Replaced s id next) (start : Paired begun) : Replaced s' id next := by
  obtain ⟨version, mem, is⟩ := made
  have stays : s'.db.versions = s.db.versions → Replaced s' id next := fun same =>
    ⟨version, same ▸ mem, is⟩
  cases change with
  | unchanged rows => exact stays (congrArg Db.versions rows)
  | rewritten rows | created rows | started rows | rolledBack rows | deleted _ rows =>
    exact stays (by rw [rows]; rfl)
  | abandoned begunRow named pending => simp [start.not_abandoned begunRow named] at pending
  | @committed o old new _ after =>
    subst after
    let left : RAppInstance := { new with lastTeardown := some (released o old .upgradeCommit) }
    obtain ⟨kept, mem, same⟩ := @recordVersion_keeps (s.db.put left) (versionOf s.drawn old left) _
      left.rollbackOfVersionId (List.mem_append_left _ mem)
    exact ⟨kept, mem, same.1.trans is.1, same.2.trans is.2⟩

theorem Fate.move {next : InstanceId} (fate : Fate act s id next) (start : Paired begun)
    (begunPending : Named begun next) (begunRow : begun.db.row id = some old)
    (reached : Reached begun act s) (reached' : Reached begun act s')
    (change : Change begun act s s') : Fate act s' id next := by
  have wf := reached.paired.wf
  have wf' := reached'.paired.wf
  have drawn : id < begun.drawn := start.wf.ids _ _ begunRow
  obtain ⟨begunNext, nextRow⟩ := Option.isSome_iff_exists.mp (by
    obtain ⟨owner, other, there, names⟩ := begunPending
    exact start.wf.pendingThere _ _ _ there names)
  have nextDrawn : next < begun.drawn := start.wf.ids _ _ nextRow
  have gone : ∀ {gone}, gone < begun.drawn → s.db.row gone = none → s'.db.row gone = none := by
    intro gone early absent
    rw [← Option.not_isSome_iff_eq_none]
    intro there
    obtain ⟨found, there⟩ := Option.isSome_iff_exists.mp there
    rcases change.row start there with before | late
    · simp [absent] at before
    · exact absurd early (Nat.not_lt.mpr late)
  have unnamed : ∀ {id}, id < begun.drawn → ¬Named s id → ¬Named s' id := by
    intro id early not names
    rcases change.named start names with before | late
    · exact not before
    · exact absurd early (Nat.not_lt.mpr late)
  cases fate with
  | @pending old row pending =>
    have alone : ¬Named s id := by
      intro names
      rw [(reached.paired.live _ _ names row).2] at pending
      cases pending
    have upgrading : old.state = .upgrading := (wf.upgrading _ _ row).mpr (by simp [pending])
    cases change.of_row start wf wf' row with
    | kept row' same state => exact .pending row' (same.trans pending)
    | back row' running names removed =>
      obtain rfl := Option.some.inj (names.symm.trans pending)
      exact .back row' (unnamed drawn alone) removed (by simp [running])
    | started row' running _ => cases upgrading.symm.trans running
    | removed _ named => exact absurd named alone
    | @replaced o new absent is _ _ names _ _ newRow notNamed made =>
      obtain rfl := Option.some.inj (names.symm.trans pending)
      obtain ⟨found, newRow⟩ := Option.isSome_iff_exists.mp newRow
      exact .replaced absent newRow notNamed is made
    | deleted _ undeployed => cases upgrading.symm.trans undeployed
  | @back old row alone absent state =>
    have moved := gone nextDrawn absent
    cases change.of_row start wf wf' row with
    | kept row' _ dead =>
      refine .back row' (unnamed drawn alone) moved fun undeployed => ?_
      rcases dead undeployed with before | ⟨o, is⟩
      · exact state before
      · exact ⟨o, _, is⟩
    | back row' running _ _ => exact .back row' (unnamed drawn alone) moved (by simp [running])
    | started row' _ upgrading =>
      exact .back row' (unnamed drawn alone) moved fun undeployed => absurd undeployed upgrading
    | removed _ named => exact absurd named alone
    | replaced _ _ _ same =>
      rw [same, absent] at nextRow
      cases nextRow
    | deleted is undeployed =>
      obtain ⟨o, id, terminates⟩ := state undeployed
      cases is.symm.trans terminates
  | @replaced o new absent row notNamed is made =>
    have absent' := gone drawn absent
    have made' := change.replaced made start
    have left := unnamed nextDrawn notNamed
    cases change.of_row start wf wf' row with
    | kept row' _ _ => exact .replaced absent' row' left is made'
    | back row' _ _ _ => exact .replaced absent' row' left is made'
    | started row' _ _ => exact .replaced absent' row' left is made'
    | removed _ named => exact absurd named notNamed
    | replaced _ _ _ same =>
      rw [same, absent] at begunRow
      cases begunRow
    | deleted is' _ => cases is.symm.trans is'

end Moves

section Runs

variable {manifest : PackageId → RappLimits} {start w w' s : World} {act : Act}
  {old : RAppInstance} {id next : InstanceId}

theorem Paired.reached (paired : Paired w) (free : ¬Chains w act)
    (path : Path manifest w act w s) : Reached w act s := by
  induction path with
  | refl => exact ⟨paired, Nat.le_refl _, .inl rfl⟩
  | tail _ move ih => exact ih.move paired free move

theorem Paired.fate (paired : Paired w) (free : ¬Chains w act) (path : Path manifest w act w s)
    (row : w.db.row id = some old) (pending : old.pendingUpgradeInstanceId = some next) :
    Fate act s id next := by
  induction path with
  | refl => exact .pending row pending
  | tail path move ih =>
    have before := paired.reached free path
    exact ih.move paired ⟨id, old, row, pending⟩ row before (before.move paired free move)
      (move.change before.paired.wf)

theorem Paired.step (paired : Paired w) (free : ¬Chains w act) (step : Step manifest w act w') :
    Paired w' := by
  rw [step]
  exact (paired.reached free (after_path paired.wf act)).paired

theorem Paired.ends (paired : Paired w) (free : ¬Chains w act) (step : Step manifest w act w') :
    Ends manifest w act w' := by
  subst step
  have path := @after_path manifest w paired.wf act
  refine ⟨fun old inst new row pending ended => ?_, fun old inst new row pending gone there => ?_,
    request_intact paired.wf act (paired.free act)⟩
  · cases paired.fate free path row pending with
    | pending row' still => exact absurd still (ended _ row')
    | back row' _ gone _ => exact .inl ⟨by simp [row'], by simp [gone]⟩
    | replaced gone row' _ _ _ => exact .inr ⟨by simp [row'], by simp [gone]⟩
  · cases paired.fate free path row pending with
    | pending row' _ => cases gone.symm.trans row'
    | back row' _ _ _ => cases gone.symm.trans row'
    | replaced _ _ _ _ made => exact made

theorem Paired.empty (empty : w.db = {}) : Paired w := by
  obtain ⟨_, p, now, drawn⟩ := w
  subst empty
  refine ⟨Wf.empty p now drawn, ?_, nofun⟩
  rintro id new ⟨owner, other, there, -⟩
  cases there

/-- In every run in which no upgrade starts on the pending replacement of another: a row is
UPGRADING when it has a pending replacement, which is there, not UNDEPLOYED, in no other upgrade and
of no other row; every upgrade that ends leaves exactly one of its rows and no replacement of a row
that is gone; and the database refuses no write. -/
theorem upgrades_paired {trace : List (Runs.Step World Act)} (empty : start.db = {})
    (run : Run (Step manifest) start trace w) (free : ∀ t ∈ trace, ¬Chains t.before t.label) :
    Pairs w ∧ ∀ t ∈ trace, Ends manifest t.before t.label t.after := by
  refine ⟨?_, ?_⟩
  · exact (run.invariant_of_guarded Paired (fun w act => ¬Chains w act) (Paired.empty empty)
      (fun _ _ _ paired free step => paired.step free step) free).pairs
  · exact run.transitions_of_guarded Paired (fun w act => ¬Chains w act) (Paired.empty empty)
      (fun _ _ _ paired free step => paired.step free step)
      (fun t => Ends manifest t.before t.label t.after)
      (fun _ _ _ paired free step => paired.ends free step) free

/-- In every run, chained upgrades included, the instances are in order: no two of them have one
invoker or one replacement, and one is UPGRADING when it has a replacement, which is there. -/
theorem instances_wf {trace : List (Runs.Step World Act)} (empty : start.db = {})
    (run : Run (Step manifest) start trace w) : Wf w :=
  run.invariant Wf (Paired.empty empty).wf fun _ act _ wf step => step ▸ (after_path wf act).wf wf

end Runs

section Example

def calm : Outside := {}

def unlimited : PackageId → RappLimits := fun _ => {}

/-- The replacement of an upgrade bootstraps on its own and is upgraded while that is pending; the
second upgrade is committed before the first. -/
def chained : List Act :=
  [.create calm { packageId := 1 }, .bootstrapComplete calm none 0, .upgrade calm 0 2,
    .bootstrapComplete calm none 4, .upgrade calm 4 3, .resolve calm 4 true]

def upgraded : List Act :=
  [.create calm { packageId := 1 }, .bootstrapComplete calm none 0, .upgrade calm 0 2,
    .resolve calm 0 true, .upgrade calm 4 3, .resolve calm 4 false]

/-- The commit removes the row that the first upgrade names, which the database refuses. -/
theorem chained_upgrade_refused : ¬ ∀ (start w : World) (trace : List (Runs.Step World Act)),
    start.db = {} → Run (Step unlimited) start trace w →
      Pairs w ∧ ∀ t ∈ trace, Ends unlimited t.before t.label t.after := by
  intro holds
  have run := @run_follow _ _ (Step unlimited) (after unlimited) {} chained fun _ _ _ => rfl
  have last := (holds _ _ _ rfl run).2 _ (List.mem_of_getLast? (by rfl))
  exact last.intact _ rfl

theorem chained_wf : Wf (chained.foldl (after unlimited) {}) :=
  instances_wf rfl (run_follow fun _ _ _ => rfl)

theorem upgraded_paired : Pairs (upgraded.foldl (after unlimited) {}) ∧
    ∀ t ∈ stepsOf (after unlimited) {} upgraded, Ends unlimited t.before t.label t.after := by
  refine upgrades_paired rfl (run_follow fun _ _ _ => rfl) fun t mem => ?_
  simp only [upgraded, stepsOf, List.mem_cons, List.not_mem_nil, or_false] at mem
  rcases mem with rfl | rfl | rfl | rfl | rfl | rfl
  · exact id
  · exact id
  · exact fun chains => not_named rfl chains.1
  · exact id
  · exact fun chains => not_named rfl chains.1
  · exact id

end Example

end Smo.RappMgmt
