import Smo.RappMgmt.Pairs

/-! The version history as a linked list of retired rows, and the two walks along its links. -/
namespace Smo.RappMgmt

section Walks

variable {db : Db} {id id' : InstanceId} {n m : Nat}

inductive LeadsTo (db : Db) : Nat → InstanceId → InstanceId → Prop
  | refl (id : InstanceId) : LeadsTo db 0 id id
  | next {n : Nat} {version : RAppInstanceVersion} {id : InstanceId} (mem : version ∈ db.versions)
      (rest : LeadsTo db n version.instanceId id) : LeadsTo db (n + 1) version.previousInstanceId id

/-- Every commit has an id of its own, makes another instance and retires another, whose row is
gone. -/
structure Recorded (w : World) : Prop where
  versionIds : (w.db.versions.map (·.versionId)).Nodup
  made : (w.db.versions.map (·.instanceId)).Nodup
  retired : (w.db.versions.map (·.previousInstanceId)).Nodup
  early : ∀ version ∈ w.db.versions, version.versionId < w.drawn
  gone : ∀ version ∈ w.db.versions, w.db.row version.previousInstanceId = none

def Linked (db : Db) : InstanceId → List RAppInstanceVersion → Prop
  | id, [] => versionThatMade db id = none
  | id, version :: rest =>
    versionThatMade db id = some version ∧ Linked db version.previousInstanceId rest

variable {w : World} {from_ : InstanceId} {turns : Nat} {seen : List VersionId}
  {version : RAppInstanceVersion}

theorem LeadsTo.unique (recorded : Recorded w) (first : LeadsTo w.db n from_ id)
    (second : LeadsTo w.db m from_ id') (live : (w.db.row id).isSome = true)
    (live' : (w.db.row id').isSome = true) : n = m ∧ id = id' := by
  induction first generalizing m with
  | refl id =>
    cases second with
    | refl => exact ⟨rfl, rfl⟩
    | next mem rest => simp [recorded.gone _ mem] at live
  | @next n version id mem rest ih =>
    generalize is : version.previousInstanceId = from_ at second
    cases second with
    | refl => simp [← is, recorded.gone _ mem] at live'
    | next mem' rest' =>
      obtain rfl := List.inj_on_of_nodup_map recorded.retired mem mem' is
      obtain ⟨rfl, rfl⟩ := ih rest' live
      exact ⟨rfl, rfl⟩

theorem followed_leads {seen : List InstanceId} (recorded : Recorded w)
    (leads : LeadsTo w.db n from_ id) (live : (w.db.row id).isSome = true) (enough : n < turns)
    (far : ∀ other ∈ seen, ∃ m, n < m ∧ LeadsTo w.db m other id) :
    followed w.db turns seen from_ = some id := by
  induction leads generalizing turns seen with
  | refl id =>
    obtain ⟨more, rfl⟩ := Nat.exists_eq_add_of_lt enough
    simp [followed, live]
  | @next n version id mem rest ih =>
    obtain ⟨turns, rfl⟩ : ∃ more, turns = more + 1 := ⟨turns - 1, by omega⟩
    have next : successor w.db version.previousInstanceId = some version.instanceId := by
      rw [successor, Table.get_of_mem recorded.retired mem]
      rfl
    have unseen : version.instanceId ∉ seen := by
      intro again
      obtain ⟨m, more, other⟩ := far _ again
      have same := (rest.unique recorded other live live).1
      omega
    simp only [followed, recorded.gone version mem, Option.isSome_none, Bool.false_eq_true, if_false,
      next, unseen]
    refine ih live (by omega) fun other mem' => ?_
    rcases List.mem_cons.mp mem' with rfl | earlier
    · exact ⟨n + 1, Nat.lt_succ_self _, .next mem rest⟩
    · obtain ⟨m, more, leads⟩ := far other earlier
      exact ⟨m, by omega, leads⟩

theorem walked_linked {versions : List RAppInstanceVersion} (linked : Linked db id versions)
    (distinct : (versions.map (·.versionId)).Nodup) (enough : versions.length < turns)
    (apart : ∀ version ∈ versions, version.versionId ∉ seen) :
    walked db turns seen (versionThatMade db id) = versions := by
  induction versions generalizing turns seen id with
  | nil =>
    obtain ⟨turns, rfl⟩ : ∃ more, turns = more + 1 := ⟨turns - 1, by omega⟩
    simp only [Linked] at linked
    rw [linked]
    rfl
  | cons version rest ih =>
    obtain ⟨turns, rfl⟩ : ∃ more, turns = more + 1 := ⟨turns - 1, by omega⟩
    obtain ⟨made, linked⟩ := linked
    obtain ⟨fresh, distinct⟩ := List.nodup_cons.mp distinct
    rw [made]
    simp only [walked, apart version List.mem_cons_self, if_false]
    refine congrArg _ (ih linked distinct (by simpa using enough) fun other mem again => ?_)
    rcases List.mem_cons.mp again with same | earlier
    · exact fresh (List.mem_map.mpr ⟨other, mem, same⟩)
    · exact apart other (List.mem_cons_of_mem _ mem) earlier

theorem LeadsTo.snoc (mem : version ∈ db.versions)
    (leads : LeadsTo db n from_ version.previousInstanceId) :
    LeadsTo db (n + 1) from_ version.instanceId := by
  generalize is : version.previousInstanceId = id at leads
  induction leads with
  | refl => exact is ▸ .next mem (.refl _)
  | next mem' _ ih => exact .next mem' (ih is)

theorem Linked.mem {versions : List RAppInstanceVersion} (linked : Linked db id versions)
    (mem : version ∈ versions) :
    version ∈ db.versions ∧ ∃ n < versions.length, LeadsTo db (n + 1) version.previousInstanceId id := by
  induction versions generalizing id with
  | nil => cases mem
  | cons first rest ih =>
    obtain ⟨made, linked⟩ := linked
    have there := Table.mem_of_get made
    obtain rfl := Table.key_of_get made
    rcases List.mem_cons.mp mem with rfl | later
    · exact ⟨there, 0, Nat.succ_pos _, .next there (.refl _)⟩
    · obtain ⟨mem, n, less, leads⟩ := ih linked later
      exact ⟨mem, n + 1, Nat.succ_lt_succ less, leads.snoc there⟩

section Linked

variable {versions : List RAppInstanceVersion}

theorem Linked.length_le (linked : Linked db id versions)
    (distinct : (versions.map (·.versionId)).Nodup) : versions.length ≤ db.versions.length :=
  List.Nodup.length_le_of_subset (.of_map _ distinct) fun _ mem => (linked.mem mem).1

theorem versionHistory_linked (linked : Linked db id versions)
    (distinct : (versions.map (·.versionId)).Nodup) : versionHistory db id = versions := by
  refine walked_linked linked distinct ?_ fun _ _ => List.not_mem_nil
  exact Nat.lt_succ_of_le (linked.length_le distinct)

theorem currentInstanceId_linked {w : World} {other : InstanceId} (recorded : Recorded w)
    (linked : Linked w.db id versions) (distinct : (versions.map (·.versionId)).Nodup)
    (live : (w.db.row id).isSome = true)
    (behind : other ∈ id :: versions.map (·.previousInstanceId)) :
    currentInstanceId w.db other = some id := by
  rcases List.mem_cons.mp behind with rfl | retired
  · exact followed_leads recorded (.refl _) live (Nat.succ_pos _) nofun
  · obtain ⟨version, mem, rfl⟩ := List.mem_map.mp retired
    obtain ⟨-, n, less, leads⟩ := linked.mem mem
    have most := linked.length_le distinct
    exact followed_leads recorded leads live (by omega) nofun

end Linked

theorem walked_leads {first : Option RAppInstanceVersion} {found : RAppInstanceVersion}
    (leads : ∀ version, first = some version → version ∈ db.versions ∧
      ∃ n, LeadsTo db n version.instanceId id) (mem : found ∈ walked db turns seen first) :
    found ∈ db.versions ∧ ∃ n, LeadsTo db n found.previousInstanceId id := by
  induction turns generalizing seen first with
  | zero => simp [walked] at mem
  | succ turns ih =>
    cases first with
    | none => simp [walked] at mem
    | some version =>
      obtain ⟨there, n, back⟩ := leads version rfl
      simp only [walked] at mem
      split at mem
      · cases mem
      · rcases List.mem_cons.mp mem with rfl | later
        · exact ⟨there, n + 1, .next there back⟩
        · refine ih (fun other is => ?_) later
          have key := Table.key_of_get is
          exact ⟨Table.mem_of_get is, n + 1, key ▸ .next there back⟩

theorem rollbackTarget_leads (target : rollbackTarget db id = some version) :
    version ∈ db.versions ∧ ∃ n, LeadsTo db n version.previousInstanceId id := by
  refine walked_leads (fun first is => ?_) (List.mem_of_find?_eq_some target)
  have key := Table.key_of_get is
  exact ⟨Table.mem_of_get is, 0, key ▸ .refl _⟩

end Walks

section Records

variable {manifest : PackageId → RappLimits} {begun s s' : World} {act : Act} {o : Outside}
  {old new : RAppInstance} {id : InstanceId}

def RAppInstanceVersion.marked (undone : Option VersionId) (by_ : VersionId)
    (version : RAppInstanceVersion) : RAppInstanceVersion :=
  if undone = some version.versionId then { version with rolledBackByVersionId := some by_ }
  else version

theorem recordVersion_versions (db : Db) (version : RAppInstanceVersion) (undone : Option VersionId) :
    (recordVersion db version undone).versions =
      (db.versions ++ [version]).map (·.marked undone version.versionId) := by
  cases undone with
  | none => simp [recordVersion, RAppInstanceVersion.marked]
  | some id =>
    refine List.map_congr_left fun other _ => ?_
    simp only [RAppInstanceVersion.marked, Option.some.injEq]
    by_cases same : other.versionId = id
    · rw [if_pos same, if_pos same.symm]
    · rw [if_neg same, if_neg (Ne.symm same)]

theorem marked_same (undone : Option VersionId) (by_ : VersionId) (version : RAppInstanceVersion) :
    (version.marked undone by_).versionId = version.versionId ∧
      (version.marked undone by_).instanceId = version.instanceId ∧
      (version.marked undone by_).previousInstanceId = version.previousInstanceId := by
  simp only [RAppInstanceVersion.marked]
  split
  · exact ⟨rfl, rfl, rfl⟩
  · exact ⟨rfl, rfl, rfl⟩

theorem LeadsTo.more {db db' : Db} {n : Nat} {from_ : InstanceId} (leads : LeadsTo db n from_ id)
    (more : ∀ version ∈ db.versions, ∃ kept ∈ db'.versions,
      kept.instanceId = version.instanceId ∧
        kept.previousInstanceId = version.previousInstanceId) : LeadsTo db' n from_ id := by
  induction leads with
  | refl id => exact .refl id
  | next mem rest ih =>
    obtain ⟨kept, mem', same, previous⟩ := more _ mem
    rw [← previous]
    exact .next mem' (same ▸ ih)

structure Logged (begun : World) (act : Act) (s : World) : Prop where
  reached : Reached begun act s
  recorded : Recorded s
  early : ∀ version ∈ s.db.versions, version.previousInstanceId < begun.drawn

theorem Recorded.kept (recorded : Recorded s) (versions : s'.db.versions = s.db.versions)
    (drawn : s.drawn ≤ s'.drawn)
    (gone : ∀ version ∈ s.db.versions, s'.db.row version.previousInstanceId = none) :
    Recorded s' where
  versionIds := versions ▸ recorded.versionIds
  made := versions ▸ recorded.made
  retired := versions ▸ recorded.retired
  early version mem := (recorded.early version (versions ▸ mem)).trans_le drawn
  gone version mem := gone version (versions ▸ mem)

theorem Recorded.committed (recorded : Recorded s) (paired : Paired s)
    (row : s.db.row old.instanceId = some old)
    (pending : old.pendingUpgradeInstanceId = some new.instanceId)
    (gone : ∀ version ∈ s.db.versions,
      (replaced o s old new).db.row version.previousInstanceId = none) :
    Recorded (replaced o s old new) := by
  let left : RAppInstance := { new with lastTeardown := some (released o old .upgradeCommit) }
  have versions : (replaced o s old new).db.versions =
      (s.db.versions ++ [versionOf s.drawn old left]).map
        (·.marked left.rollbackOfVersionId s.drawn) := recordVersion_versions _ _ _
  have key : ∀ f : RAppInstanceVersion → Nat,
      (∀ version, f (version.marked left.rollbackOfVersionId s.drawn) = f version) →
      (s.db.versions.map f).Nodup → (∀ version ∈ s.db.versions, f version ≠ f (versionOf s.drawn old left)) →
      ((replaced o s old new).db.versions.map f).Nodup := by
    intro f same distinct fresh
    have unmarked : (f ∘ fun version => version.marked left.rollbackOfVersionId s.drawn) = f :=
      funext same
    rw [versions, List.map_map, unmarked, List.map_append, List.nodup_append]
    refine ⟨distinct, List.nodup_singleton _, ?_⟩
    rintro a mem b mem' rfl
    obtain ⟨version, there, is⟩ := List.mem_map.mp mem
    exact fresh version there (is.trans (List.mem_singleton.mp mem'))
  have is : ∀ version ∈ (replaced o s old new).db.versions, ∃ before ∈ s.db.versions ++
      [versionOf s.drawn old left], version.versionId = before.versionId ∧
        version.previousInstanceId = before.previousInstanceId := by
    intro version mem
    rw [versions] at mem
    obtain ⟨before, there, rfl⟩ := List.mem_map.mp mem
    obtain ⟨id, -, previous⟩ := marked_same left.rollbackOfVersionId s.drawn before
    exact ⟨before, there, id, previous⟩
  refine ⟨?_, ?_, ?_, fun version mem => ?_, fun version mem => ?_⟩
  · exact key _ (fun version => (marked_same _ _ version).1) recorded.versionIds
      fun version mem => Nat.ne_of_lt (recorded.early version mem)
  · refine key _ (fun version => (marked_same _ _ version).2.1) recorded.made fun version mem same => ?_
    exact (paired.made version mem).2 ⟨_, old, row, pending.trans (congrArg some same.symm)⟩
  · refine key _ (fun version => (marked_same _ _ version).2.2) recorded.retired
      fun version mem same => ?_
    have absent := recorded.gone version mem
    rw [same] at absent
    cases absent.symm.trans row
  · obtain ⟨before, there, same, -⟩ := is version mem
    rw [same]
    rcases List.mem_append.mp there with early | recorded'
    · exact (recorded.early before early).trans (Nat.lt_succ_self _)
    · obtain rfl := List.mem_singleton.mp recorded'
      exact Nat.lt_succ_self _
  · obtain ⟨before, there, -, same⟩ := is version mem
    rw [same]
    rcases List.mem_append.mp there with early | recorded'
    · exact gone before early
    · obtain rfl := List.mem_singleton.mp recorded'
      exact (Db.row_remove _).trans (if_pos rfl)

theorem Logged.move (logged : Logged begun act s) (start : Paired begun) (free : ¬Chains begun act)
    (move : Move manifest begun act s s') : Logged begun act s' := by
  have wf := logged.reached.paired.wf
  have change := move.change wf
  have gone : ∀ version ∈ s.db.versions, s'.db.row version.previousInstanceId = none := by
    intro version mem
    rw [← Option.not_isSome_iff_eq_none]
    intro there
    obtain ⟨found, there⟩ := Option.isSome_iff_exists.mp there
    rcases change.row start there with before | late
    · simp [logged.recorded.gone version mem] at before
    · exact absurd (logged.early version mem) (Nat.not_lt.mpr late)
  have stays : s'.db.versions = s.db.versions → Logged begun act s' := fun versions =>
    ⟨logged.reached.move start free move, logged.recorded.kept versions move.drawn gone,
      fun version mem => logged.early version (versions ▸ mem)⟩
  cases change with
  | unchanged rows => exact stays (congrArg Db.versions rows)
  | rewritten rows | created rows | started rows | rolledBack rows | deleted _ rows =>
    exact stays (by rw [rows]; rfl)
  | abandoned begunRow named pending => simp [start.not_abandoned begunRow named] at pending
  | @committed o old new is after row pending newRow running alone same =>
    subst after
    refine ⟨logged.reached.move start free move,
      logged.recorded.committed logged.reached.paired row pending gone, fun version mem => ?_⟩
    obtain ⟨before, there, -, previous⟩ := recordVersion_mem mem
    rw [← previous]
    rcases List.mem_append.mp there with early | recorded
    · exact logged.early before early
    · obtain rfl := List.mem_singleton.mp recorded
      exact start.wf.ids _ _ (same ▸ row)

end Records

end Smo.RappMgmt
