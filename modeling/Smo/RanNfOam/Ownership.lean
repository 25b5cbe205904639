import Smo.Lib.Table
import Smo.RanNfOam.ConfigJobs.Models

/-! Whose a config job is (`app/scoping.py`): the recursive query over all jobs and the walk from one
job along the jobs it undoes. -/
namespace Smo.RanNfOam.Ownership

open ConfigJobs

section Code

variable (store : Store) (caller : Option String)

def made : List Nat :=
  (store.jobs.filter fun jr => caller.isSome && jr.job.invokerId = caller).map (·.job.jobId)

def undoing (rows : List Nat) : List Nat :=
  rows.flatMap fun id => (store.jobs.filter (·.job.rollbackOf = some id)).map (·.job.jobId)

/-- `UNION ALL` of the rounds until one has no rows; none when the rounds allowed do not suffice. -/
def rounds : Nat → List Nat → Option (List Nat)
  | 0, _ => none
  | _ + 1, [] => some []
  | allowed + 1, rows => (rounds allowed (undoing store rows)).map (rows ++ ·)

def ownedJobs (allowed : Nat) : Option (List Nat) := rounds store allowed (made store caller)

/-- The loop of `job_owned_by`; none when the rounds allowed do not suffice. -/
def walk : Nat → List Nat → Option WriteConfigJob → Option Bool
  | 0, _, _ => none
  | _ + 1, _, none => some false
  | allowed + 1, seen, some current =>
    if current.jobId ∈ seen then some false
    else if caller.isSome ∧ current.invokerId = caller then some true
    else walk allowed (current.jobId :: seen)
      ((current.rollbackOf.bind store.job?).map (·.job))

def jobOwnedBy (job : WriteConfigJob) (allowed : Nat) : Option Bool :=
  walk store caller allowed [] (some job)

structure Linked : Prop where
  keyed : (store.jobs.map (·.job.jobId)).Nodup
  earlier : ∀ (i j : Nat) jr undone, store.jobs[i]? = some jr → store.jobs[j]? = some undone →
    jr.job.rollbackOf = some undone.job.jobId → j < i

inductive Belongs : Nat → Prop
  | made {jr : JobRows} (there : jr ∈ store.jobs) (named : caller.isSome)
      (mine : jr.job.invokerId = caller) : Belongs jr.job.jobId
  | undoes {jr : JobRows} {id : Nat} (there : jr ∈ store.jobs) (link : jr.job.rollbackOf = some id)
      (owned : Belongs id) : Belongs jr.job.jobId

end Code

section Query

variable {store : Store} {caller : Option String} {rows : List Nat} {id : Nat}

theorem mem_made : id ∈ made store caller ↔
    ∃ jr ∈ store.jobs, jr.job.jobId = id ∧ caller.isSome ∧ jr.job.invokerId = caller := by
  simp only [made, List.mem_map, List.mem_filter, Bool.and_eq_true, decide_eq_true_iff]
  constructor
  · rintro ⟨jr, ⟨there, mine⟩, same⟩
    exact ⟨jr, there, same, mine⟩
  · rintro ⟨jr, there, same, mine⟩
    exact ⟨jr, ⟨there, mine⟩, same⟩

theorem mem_undoing : id ∈ undoing store rows ↔
    ∃ jr ∈ store.jobs, jr.job.jobId = id ∧ ∃ undone ∈ rows, jr.job.rollbackOf = some undone := by
  simp only [undoing, List.mem_flatMap, List.mem_map, List.mem_filter, decide_eq_true_iff]
  constructor
  · rintro ⟨undone, inRows, jr, ⟨there, link⟩, same⟩
    exact ⟨jr, there, same, undone, inRows, link⟩
  · rintro ⟨jr, there, same, undone, inRows, link⟩
    exact ⟨undone, inRows, jr, ⟨there, link⟩, same⟩

def From (store : Store) (k : Nat) (rows : List Nat) : Prop :=
  ∀ id ∈ rows, ∃ i jr, k ≤ i ∧ store.jobs[i]? = some jr ∧ jr.job.jobId = id

theorem undoing_from (linked : Linked store) {k : Nat} (from_ : From store k rows) :
    From store (k + 1) (undoing store rows) := by
  intro id mem
  obtain ⟨jr, there, same, undone, inRows, link⟩ := mem_undoing.mp mem
  obtain ⟨j, other, late, at_, named⟩ := from_ undone inRows
  obtain ⟨i, found⟩ := List.mem_iff_getElem?.mp there
  have before := linked.earlier i j jr other found at_ (by rw [link, named])
  exact ⟨i, jr, by omega, found, same⟩

theorem rounds_some (linked : Linked store) {k allowed : Nat} (from_ : From store k rows)
    (inside : k ≤ store.jobs.length) (enough : store.jobs.length < k + allowed) :
    ∃ ids, rounds store allowed rows = some ids ∧
      ∀ id, id ∈ ids ↔ ∃ steps, id ∈ (undoing store)^[steps] rows := by
  have nothing (steps : Nat) : (undoing store)^[steps] [] = [] := by
    induction steps with
    | zero => rfl
    | succ steps ih =>
      rw [Function.iterate_succ_apply', ih]
      rfl
  induction allowed generalizing k rows with
  | zero => omega
  | succ allowed ih =>
    cases rows with
    | nil => exact ⟨[], rfl, fun id => by simp [nothing]⟩
    | cons first rest =>
      obtain ⟨i, jr, late, found, -⟩ := from_ first List.mem_cons_self
      have within := (List.getElem?_eq_some_iff.mp found).1
      obtain ⟨ids, is, mem⟩ := ih (undoing_from linked from_) (by omega) (by omega)
      refine ⟨first :: rest ++ ids, by simp [rounds, is], fun id => ?_⟩
      rw [List.mem_append, mem]
      constructor
      · rintro (now | ⟨steps, later⟩)
        · exact ⟨0, now⟩
        · exact ⟨steps + 1, later⟩
      · rintro ⟨steps, there⟩
        cases steps with
        | zero => exact .inl there
        | succ steps => exact .inr ⟨steps, there⟩

theorem mem_rounds {steps : Nat} (there : id ∈ (undoing store)^[steps] (made store caller)) :
    Belongs store caller id := by
  induction steps generalizing id with
  | zero =>
    obtain ⟨jr, mem, rfl, named, mine⟩ := mem_made.mp there
    exact .made mem named mine
  | succ steps ih =>
    rw [Function.iterate_succ_apply'] at there
    obtain ⟨jr, mem, rfl, undone, inRows, link⟩ := mem_undoing.mp there
    exact .undoes mem link (ih inRows)

theorem rounds_mem (belongs : Belongs store caller id) :
    ∃ steps, id ∈ (undoing store)^[steps] (made store caller) := by
  induction belongs with
  | made there named mine => exact ⟨0, mem_made.mpr ⟨_, there, rfl, named, mine⟩⟩
  | undoes there link _ ih =>
    obtain ⟨steps, inRows⟩ := ih
    refine ⟨steps + 1, ?_⟩
    rw [Function.iterate_succ_apply']
    exact mem_undoing.mpr ⟨_, there, rfl, _, inRows, link⟩

theorem ownedJobs_some (linked : Linked store) {allowed : Nat}
    (enough : store.jobs.length < allowed) :
    ∃ ids, ownedJobs store caller allowed = some ids ∧ ∀ id, id ∈ ids ↔ Belongs store caller id := by
  have start : From store 0 (made store caller) := by
    intro id mem
    obtain ⟨jr, there, same, -⟩ := mem_made.mp mem
    obtain ⟨i, found⟩ := List.mem_iff_getElem?.mp there
    exact ⟨i, jr, Nat.zero_le i, found, same⟩
  obtain ⟨ids, is, mem⟩ := @rounds_some _ _ linked 0 allowed start (Nat.zero_le _) (by omega)
  refine ⟨ids, is, fun id => (mem id).trans ⟨?_, rounds_mem⟩⟩
  rintro ⟨steps, there⟩
  exact mem_rounds there

end Query

section Walk

variable {store : Store} {caller : Option String} {jr : JobRows}

theorem job?_eq_some (linked : Linked store) (there : jr ∈ store.jobs) :
    store.job? jr.job.jobId = some jr := Table.get_of_mem linked.keyed there

theorem place_eq (linked : Linked store) {i j : Nat} {other : JobRows}
    (found : store.jobs[i]? = some jr) (found' : store.jobs[j]? = some other)
    (same : jr.job.jobId = other.job.jobId) : i = j := by
  have within := (List.getElem?_eq_some_iff.mp found).1
  refine (List.getElem?_inj (by rwa [List.length_map]) linked.keyed).mp ?_
  rw [List.getElem?_map, List.getElem?_map, found, found', Option.map_some, Option.map_some, same]

theorem belongs_iff (linked : Linked store) (there : jr ∈ store.jobs) :
    Belongs store caller jr.job.jobId ↔ (caller.isSome ∧ jr.job.invokerId = caller) ∨
      ∃ id, jr.job.rollbackOf = some id ∧ Belongs store caller id := by
  constructor
  · generalize same : jr.job.jobId = id
    intro belongs
    cases belongs with
    | made there' named mine =>
      have is := List.inj_on_of_nodup_map linked.keyed there there' same
      exact .inl ⟨named, is ▸ mine⟩
    | undoes there' link owned =>
      have is := List.inj_on_of_nodup_map linked.keyed there there' same
      exact .inr ⟨_, is ▸ link, owned⟩
  · rintro (⟨named, mine⟩ | ⟨id, link, owned⟩)
    · exact .made there named mine
    · exact .undoes there link owned

theorem Belongs.job {id : Nat} (belongs : Belongs store caller id) :
    ∃ jr ∈ store.jobs, jr.job.jobId = id := by
  cases belongs with
  | made there _ _ | undoes there _ _ => exact ⟨_, there, rfl⟩

theorem walk_some (linked : Linked store) {i allowed : Nat} {seen : List Nat}
    (found : store.jobs[i]? = some jr)
    (unseen : ∀ (k : Nat) other, k ≤ i → store.jobs[k]? = some other → other.job.jobId ∉ seen)
    (enough : i + 1 < allowed) :
    ∃ owned, walk store caller allowed seen (some jr.job) = some owned ∧
      (owned = true ↔ Belongs store caller jr.job.jobId) := by
  induction i using Nat.strong_induction_on generalizing jr allowed seen with
  | _ i ih =>
    obtain ⟨rest, rfl⟩ : ∃ rest, allowed = rest + 1 := ⟨allowed - 1, by omega⟩
    have there := List.mem_of_getElem? found
    rw [walk, if_neg (unseen i jr (Nat.le_refl i) found)]
    by_cases mine : caller.isSome ∧ jr.job.invokerId = caller
    · rw [if_pos mine]
      exact ⟨true, rfl, iff_of_true rfl ((belongs_iff linked there).mpr (.inl mine))⟩
    · rw [if_neg mine]
      have up : Belongs store caller jr.job.jobId ↔
          ∃ id, jr.job.rollbackOf = some id ∧ Belongs store caller id :=
        (belongs_iff linked there).trans (or_iff_right mine)
      cases next : jr.job.rollbackOf.bind store.job? with
      | none =>
        obtain ⟨last, rfl⟩ : ∃ last, rest = last + 1 := ⟨rest - 1, by omega⟩
        refine ⟨false, rfl, iff_of_false Bool.false_ne_true fun belongs => ?_⟩
        obtain ⟨id, link, owned⟩ := up.mp belongs
        obtain ⟨other, inStore, rfl⟩ := owned.job
        rw [link, Option.bind_some, job?_eq_some linked inStore] at next
        cases next
      | some undone =>
        obtain ⟨id, link, at_⟩ := Option.bind_eq_some_iff.mp next
        obtain rfl : undone.job.jobId = id := by simpa using List.find?_some at_
        obtain ⟨j, found'⟩ := List.mem_iff_getElem?.mp (List.mem_of_find?_eq_some at_)
        have before := linked.earlier i j jr undone found found' link
        have unseen' (k : Nat) (other : JobRows) (late : k ≤ j) (at_k : store.jobs[k]? = some other) :
            other.job.jobId ∉ jr.job.jobId :: seen := by
          intro inSeen
          rcases List.mem_cons.mp inSeen with same | old
          · have := place_eq linked at_k found same
            omega
          · exact unseen k other (by omega) at_k old
        obtain ⟨owned, is, mem⟩ := ih j before found' unseen' (by omega : j + 1 < rest)
        refine ⟨owned, is, mem.trans (up.trans ?_).symm⟩
        rw [link]
        simp

end Walk

/-- The query and the walk both end, and a job is in the one exactly when the other finds it to
belong to the caller. -/
theorem owned_agree {store : Store} (linked : Linked store) (caller : Option String) {allowed : Nat}
    (enough : store.jobs.length < allowed) :
    ∃ ids, ownedJobs store caller allowed = some ids ∧
      (∀ id ∈ ids, ∃ jr ∈ store.jobs, jr.job.jobId = id) ∧
      ∀ jr ∈ store.jobs, ∃ owned, jobOwnedBy store caller jr.job allowed = some owned ∧
        (jr.job.jobId ∈ ids ↔ owned = true) := by
  obtain ⟨ids, is, mem⟩ := @ownedJobs_some _ caller linked _ enough
  refine ⟨ids, is, fun id inIds => ((mem id).mp inIds).job, fun jr there => ?_⟩
  obtain ⟨i, found⟩ := List.mem_iff_getElem?.mp there
  have within := (List.getElem?_eq_some_iff.mp found).1
  obtain ⟨owned, walked, iff_⟩ := @walk_some _ caller _ linked i allowed [] found
    (fun _ _ _ _ => List.not_mem_nil) (by omega)
  exact ⟨owned, walked, (mem _).trans iff_.symm⟩

def sampleJob (jobId : Nat) (invokerId : Option String) (rollbackOf : Option Nat) : JobRows where
  job := {
    jobId, requestedBy := "ann", scope := "CM", msacRole := none, rollbackOf, rollbackForced := false
    waveSize := none, wavePauseSeconds := 0, waveCount := 1, gateMaxNewAlarms := 0
    onGateFailure := .halt, invokerId, createdAt := 0, kpiGuard := none, scheduledAt := none
    windowEnd := none }
  rows := []

def sample : Store := { jobs := [sampleJob 7 (some "rapp") none, sampleJob 5 none (some 7),
  sampleJob 9 (some "other") (some 5)] }

theorem sample_linked : Linked sample where
  keyed := by decide
  earlier := by
    intro i j jr undone found found' link
    have all : ∀ i < 3, ∀ j < 3, ∀ jr ∈ sample.jobs[i]?, ∀ undone ∈ sample.jobs[j]?,
        jr.job.rollbackOf = some undone.job.jobId → j < i := by decide
    have within := (List.getElem?_eq_some_iff.mp found).1
    have within' := (List.getElem?_eq_some_iff.mp found').1
    exact all i within j within' jr found undone found' link

theorem sample_owned : ∃ ids, ownedJobs sample (some "rapp") 4 = some ids ∧
    (∀ id ∈ ids, ∃ jr ∈ sample.jobs, jr.job.jobId = id) ∧
    ∀ jr ∈ sample.jobs, ∃ owned, jobOwnedBy sample (some "rapp") jr.job 4 = some owned ∧
      (jr.job.jobId ∈ ids ↔ owned = true) :=
  owned_agree sample_linked (some "rapp") (by decide)

end Smo.RanNfOam.Ownership
