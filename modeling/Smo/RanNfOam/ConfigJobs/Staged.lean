import Mathlib.Data.Finset.Card
import Mathlib.Data.List.Pairwise
import Mathlib.Order.Interval.Finset.Nat
import Smo.RanNfOam.ConfigJobs.Performed

/-! Staged config jobs: the layout of the waves, and what is known of the sub-changes and of
what was sent while a job that halts at a failed gate goes through its waves; and that a job
stays as it ended. -/
namespace Smo.RanNfOam.ConfigJobs

open Runs

/-- The sub-changes of one element are in one wave, and the distinct elements of a wave are at
most so many as the job's waves take. -/
structure Layout (waveSize : Option PNat) (waveCount : Nat) (rows : List WriteConfigSubChange) :
    Prop where
  positions : (rows.map (·.position)).Nodup
  together : ∀ row ∈ rows, ∀ other ∈ rows, row.managedElementRef = other.managedElementRef →
    row.wave = other.wave
  width : ∀ size ∈ waveSize, ∀ wave, ∀ elements : List String, elements.Nodup →
    (∀ element ∈ elements, ∃ row ∈ rows, row.wave = wave ∧ row.managedElementRef = element) →
    elements.length ≤ size
  last : ∀ row ∈ rows, row.wave ≤ waveCount

def SamePlace (row row' : WriteConfigSubChange) : Prop :=
  row'.position = row.position ∧ row'.wave = row.wave ∧
    row'.managedElementRef = row.managedElementRef

theorem related_of_mem {α β : Type} {R : α → β → Prop} {xs : List α} {ys : List β}
    (related : List.Forall₂ R xs ys) : ∀ y ∈ ys, ∃ x ∈ xs, R x y := by
  induction related with
  | nil => exact fun _ mem => absurd mem List.not_mem_nil
  | cons first rest ih =>
    rintro y (- | ⟨_, mem⟩)
    · exact ⟨_, List.mem_cons_self, first⟩
    · obtain ⟨x, inside, xy⟩ := ih y mem
      exact ⟨x, List.mem_cons_of_mem _ inside, xy⟩

theorem same_positions {rows rows' : List WriteConfigSubChange}
    (same : List.Forall₂ SamePlace rows rows') :
    rows'.map (·.position) = rows.map (·.position) := by
  induction same with
  | nil => rfl
  | cons first rest ih => rw [List.map_cons, List.map_cons, first.1, ih]

theorem Layout.same {waveSize : Option PNat} {waveCount : Nat}
    {rows rows' : List WriteConfigSubChange} (layout : Layout waveSize waveCount rows)
    (same : List.Forall₂ SamePlace rows rows') : Layout waveSize waveCount rows' := by
  refine ⟨by rw [same_positions same]; exact layout.positions, fun row mem other mem' element => ?_,
    fun size isSize wave elements nodup inWave => ?_, fun row mem => ?_⟩
  · obtain ⟨row₀, inside, place⟩ := related_of_mem same row mem
    obtain ⟨other₀, inside', place'⟩ := related_of_mem same other mem'
    rw [place.2.1, place'.2.1]
    exact layout.together _ inside _ inside' (place.2.2.symm.trans (element.trans place'.2.2))
  · refine layout.width size isSize wave elements nodup fun element mem => ?_
    obtain ⟨row, inside, isWave, isElement⟩ := inWave element mem
    obtain ⟨row₀, inside₀, place⟩ := related_of_mem same row inside
    exact ⟨row₀, inside₀, place.2.1.symm.trans isWave, place.2.2.symm.trans isElement⟩
  · obtain ⟨row₀, inside, place⟩ := related_of_mem same row mem
    rw [place.2.1]
    exact layout.last _ inside

section NewJob

variable {now : Time} {body : WriteConfigRequest} {origin : Origin} {jobId : Nat}

theorem newJob_rows (row : WriteConfigSubChange)
    (mem : row ∈ (newJob now body origin jobId).rows) :
    row.status = .pending ∧ row.wave = waveOf body row.managedElementRef ∧
      row.managedElementRef ∈ elementsOf body.changes := by
  obtain ⟨entry, inside, rfl⟩ := List.mem_map.mp mem
  refine ⟨rfl, rfl, ?_⟩
  rw [elementsOf, List.mem_eraseDups]
  exact List.mem_map_of_mem (List.fst_mem_of_mem_zipIdx inside)

theorem newJob_positions : ((newJob now body origin jobId).rows.map (·.position)).Nodup := by
  have indices : (newJob now body origin jobId).rows.map (·.position) =
      body.changes.zipIdx.map (·.2) := by
    rw [newJob, List.map_map]
    rfl
  rw [indices, List.zipIdx_map_snd]
  exact List.nodup_range'

theorem waveOf_le {element : String} (mem : element ∈ elementsOf body.changes) :
    waveOf body element ≤ waveCountOf body := by
  have inWaves := List.mem_map_of_mem (f := waveOf body) mem
  unfold waveCountOf
  cases largest : ((elementsOf body.changes).map (waveOf body)).max? with
  | none =>
    rw [List.max?_eq_none_iff] at largest
    rw [largest] at inWaves
    cases inWaves
  | some most => exact (List.max?_eq_some_iff.mp largest).2 _ inWaves

theorem wave_width {size : PNat} (isSize : size ∈ body.waveSize) {wave : Nat}
    {elements : List String} (nodup : elements.Nodup)
    (inWave : ∀ element ∈ elements,
      element ∈ elementsOf body.changes ∧ waveOf body element = wave) :
    elements.length ≤ size := by
  have isSize : waveSizeOf body = size := by rw [waveSizeOf, Option.mem_def.mp isSize]
  have places : (elements.map (elementsOf body.changes).idxOf).Nodup := by
    refine nodup.map_on fun element mem other mem' same => ?_
    exact (List.idxOf_inj (inWave element mem).1).mp same
  have slice : ∀ place ∈ elements.map (elementsOf body.changes).idxOf,
      place ∈ Finset.Ico ((wave - 1) * size) ((wave - 1) * size + size) := by
    intro place mem
    obtain ⟨element, inside, rfl⟩ := List.mem_map.mp mem
    have isWave := (inWave element inside).2
    rw [waveOf, isSize] at isWave
    have div := Nat.eq_sub_of_add_eq isWave
    rw [Finset.mem_Ico]
    have pos := size.pos
    constructor
    · rw [← div]
      exact Nat.div_mul_le_self _ _
    · rw [← div]
      exact Nat.lt_div_mul_add pos
  have card := Finset.card_le_card fun place (mem : place ∈ (elements.map _).toFinset) =>
    slice place (List.mem_toFinset.mp mem)
  rw [List.toFinset_card_of_nodup places, List.length_map, Nat.card_Ico] at card
  omega

theorem newJob_layout : Layout (newJob now body origin jobId).job.waveSize
    (newJob now body origin jobId).job.waveCount (newJob now body origin jobId).rows := by
  refine ⟨newJob_positions, fun row mem other mem' same => ?_,
    fun size isSize wave elements nodup inWave => ?_, fun row mem => ?_⟩
  · rw [(newJob_rows row mem).2.1, (newJob_rows other mem').2.1, same]
  · refine @wave_width body size isSize wave elements nodup fun element mem => ?_
    obtain ⟨row, inside, isWave, rfl⟩ := inWave element mem
    obtain ⟨-, isOf, element⟩ := newJob_rows row inside
    exact ⟨element, isOf.symm.trans isWave⟩
  · obtain ⟨-, wave, element⟩ := newJob_rows row mem
    rw [wave]
    exact waveOf_le element

end NewJob

def terminalStates : List JobState := [.completed, .partialSuccess, .failed, .rejected]

def sentOf (sent : List Dispatch) (jobId : Nat) : List Dispatch := sent.filter (·.job.jobId = jobId)

structure InOrder (rows : List WriteConfigSubChange) (sent : List Dispatch) : Prop where
  once : (sent.map (·.position)).Nodup
  ordered : sent.Pairwise fun earlier later => earlier.wave ≤ later.wave
  placed : ∀ dispatch ∈ sent, ∃ row ∈ rows,
    row.position = dispatch.position ∧ row.wave = dispatch.wave

/-- A job that has not ended: its pending sub-changes are those of the waves to come. -/
structure Underway (jr : JobRows) (sent : List Dispatch) : Prop where
  pending : ∀ row ∈ jr.rows, row.status = .pending ↔ jr.job.currentWave < row.wave
  outcome : ∀ row ∈ jr.rows, row.status ≠ .reverted
  past : ∀ dispatch ∈ sent, dispatch.wave ≤ jr.job.currentWave

def someRow (jr : JobRows) (status : SubChangeStatus) : Prop := ∃ row ∈ jr.rows, row.status = status

/-- A job that has ended: nothing is pending, and its status is that of its outcomes. -/
structure Ended (jr : JobRows) : Prop where
  pending : ¬someRow jr .pending
  completed : jr.job.status = .completed ↔ someRow jr .applied ∧ ¬someRow jr .rejected
  partialSuccess : jr.job.status = .partialSuccess ↔ someRow jr .applied ∧ someRow jr .rejected
  failed : jr.job.status = .failed ∨ jr.job.status = .rejected ↔ ¬someRow jr .applied
  refused : jr.job.status = .rejected →
    ∀ row ∈ jr.rows, row.rejectionReason = some "APPROVAL_REJECTED"

structure Staged (jr : JobRows) (sent : List Dispatch) : Prop where
  layout : Layout jr.job.waveSize jr.job.waveCount jr.rows
  inOrder : InOrder jr.rows sent
  underway : jr.job.status ∉ terminalStates → Underway jr sent
  ended : jr.job.status ∈ terminalStates → Ended jr

theorem InOrder.same {rows rows' : List WriteConfigSubChange} {sent : List Dispatch}
    (inOrder : InOrder rows sent) (same : List.Forall₂ SamePlace rows rows') :
    InOrder rows' sent := by
  refine ⟨inOrder.once, inOrder.ordered, fun dispatch mem => ?_⟩
  obtain ⟨row, inside, position, wave⟩ := inOrder.placed dispatch mem
  have back : List.Forall₂ (fun row' row => SamePlace row row') rows' rows := same.flip
  obtain ⟨row', inside', place⟩ := related_of_mem back row inside
  exact ⟨row', inside', place.1.trans position, place.2.1.trans wave⟩

section Waves

variable {σ : Type} {o1 : O1Clients σ} {now : Time} {before mid after jr : JobRows}
  {sent new : List Dispatch}

theorem RanIn.samePlace {wave : Nat} {row row' : WriteConfigSubChange}
    (ran : RanIn wave row row') : SamePlace row row' := by
  unfold RanIn at ran
  split at ran
  next => exact ⟨ran.position, ran.wave, congrArg Change.managedElementRef ran.change⟩
  next =>
    subst ran
    exact ⟨rfl, rfl, rfl⟩

theorem WaveRan.samePlaces (ran : WaveRan o1 now before mid new) :
    List.Forall₂ SamePlace before.rows mid.rows :=
  ran.rows.imp fun _ _ => RanIn.samePlace

theorem WaveRan.underway (answers : o1.Answers) (ran : WaveRan o1 now before mid new)
    (positions : (before.rows.map (·.position)).Nodup) (inOrder : InOrder before.rows sent)
    (underway : Underway before sent) :
    InOrder mid.rows (sent ++ new) ∧ Underway mid (sent ++ new) := by
  have current : mid.job.currentWave = before.job.currentWave + 1 := by rw [ran.job]
  have ofWave : ∀ dispatch ∈ new, ∃ row ∈ before.rows, row.position = dispatch.position ∧
      row.wave = dispatch.wave ∧ dispatch.wave = before.job.currentWave + 1 := by
    intro dispatch mem
    obtain ⟨row, inWave, rfl⟩ := ran.sent.of_wave dispatch mem
    obtain ⟨inside, isWave⟩ := List.mem_filter.mp inWave
    have isWave : row.wave = before.job.currentWave + 1 := by simpa using isWave
    exact ⟨row, inside, rfl, rfl, isWave⟩
  have rows := ran.samePlaces
  have before_new : InOrder before.rows (sent ++ new) := by
    refine ⟨?_, ?_, fun dispatch mem => ?_⟩
    · rw [List.map_append, List.nodup_append]
      refine ⟨inOrder.once, ran.sent.once answers (positions.sublist (List.filter_sublist.map _)),
        fun position old other fresh same => ?_⟩
      subst same
      obtain ⟨dispatch, mem, rfl⟩ := List.mem_map.mp old
      obtain ⟨dispatch', mem', same⟩ := List.mem_map.mp fresh
      obtain ⟨row, inside, position, wave⟩ := inOrder.placed dispatch mem
      obtain ⟨row', inside', position', wave', next⟩ := ofWave dispatch' mem'
      obtain rfl := List.inj_on_of_nodup_map positions inside inside'
        (position.trans (same.symm.trans position'.symm))
      have past := underway.past dispatch mem
      omega
    · rw [List.pairwise_append]
      refine ⟨inOrder.ordered, ?_, fun dispatch mem dispatch' mem' => ?_⟩
      · refine List.pairwise_of_forall_mem_list fun dispatch mem dispatch' mem' => ?_
        obtain ⟨_, _, _, _, wave⟩ := ofWave dispatch mem
        obtain ⟨_, _, _, _, wave'⟩ := ofWave dispatch' mem'
        omega
      · obtain ⟨_, _, _, _, next⟩ := ofWave dispatch' mem'
        have past := underway.past dispatch mem
        omega
    · rcases List.mem_append.mp mem with old | fresh
      · exact inOrder.placed dispatch old
      · obtain ⟨row, inside, position, wave, -⟩ := ofWave dispatch fresh
        exact ⟨row, inside, position, wave⟩
  refine ⟨before_new.same rows, fun row' mem => ?_, fun row' mem => ?_, fun dispatch mem => ?_⟩
  · obtain ⟨row, inside, ranIn⟩ := related_of_mem ran.rows row' mem
    have place := ranIn.samePlace
    have known := underway.pending row inside
    rw [place.2.1, current]
    unfold RanIn at ranIn
    split at ranIn
    next inWave =>
      refine iff_of_false (fun pending => ?_) (by omega)
      rcases ranIn.outcome with applied | rejected
      · rw [pending] at applied
        cases applied
      · rw [pending] at rejected
        cases rejected
    next other =>
      subst ranIn
      rw [known]
      omega
  · obtain ⟨row, inside, ranIn⟩ := related_of_mem ran.rows row' mem
    unfold RanIn at ranIn
    split at ranIn
    next =>
      rcases ranIn.outcome with applied | rejected
      · rw [applied]
        decide
      · rw [rejected]
        decide
    next =>
      subst ranIn
      exact underway.outcome _ inside
  · rw [current]
    rcases List.mem_append.mp mem with old | fresh
    · exact Nat.le_succ_of_le (underway.past dispatch old)
    · obtain ⟨_, _, _, _, next⟩ := ofWave dispatch fresh
      exact next.le

theorem applied_pos (rows : List WriteConfigSubChange) (status : SubChangeStatus) :
    (rows.map (·.status)).countP (· = status) ≠ 0 ↔ ∃ row ∈ rows, row.status = status := by
  rw [← Nat.pos_iff_ne_zero, List.countP_pos_iff]
  simp only [List.mem_map, decide_eq_true_eq, exists_exists_and_eq_and]

theorem finish_ended (began : jr.job.status = .processing ∨ jr.job.status = .halted)
    (settled : ∀ row ∈ jr.rows, row.status = .applied ∨ row.status = .rejected)
    (finished : finish jr = .ok after) :
    after.rows = jr.rows ∧ after.job.status ∈ terminalStates ∧ Ended after := by
  obtain ⟨status, fired, same⟩ := bind_ok finished
  cases same
  have nonePending : ∀ job, ¬someRow ⟨job, jr.rows⟩ .pending := by
    rintro job ⟨row, mem, pending⟩
    rcases settled row mem with applied | rejected
    · rw [pending] at applied
      cases applied
    · rw [pending] at rejected
      cases rejected
  have applied := applied_pos jr.rows .applied
  have rejected := applied_pos jr.rows .rejected
  unfold aggregateEvent at fired
  dsimp only at fired
  refine ⟨rfl, ?_⟩
  split at fired
  next both =>
    have some_ := applied.mp both.1
    have some' := rejected.mp both.2
    have isStatus : status = .partialSuccess := by
      rcases began with began | began <;> rw [began] at fired <;> cases fired <;> rfl
    subst isStatus
    have terminal : JobState.partialSuccess ∈ terminalStates := by decide
    refine ⟨terminal, nonePending _, iff_of_false nofun fun none_ => none_.2 some',
      iff_of_true rfl ⟨some_, some'⟩, iff_of_false nofun fun none_ => none_ some_, nofun⟩
  next notBoth =>
    split at fired
    next only =>
      have some_ := applied.mp only.1
      have none_ : ¬∃ row ∈ jr.rows, row.status = .rejected := fun some' =>
        rejected.mpr some' only.2
      have isStatus : status = .completed := by
        rcases began with began | began <;> rw [began] at fired <;> cases fired <;> rfl
      subst isStatus
      have terminal : JobState.completed ∈ terminalStates := by decide
      exact ⟨terminal, nonePending _, iff_of_true rfl ⟨some_, none_⟩,
        iff_of_false nofun fun both => none_ both.2, iff_of_false nofun fun none_ => none_ some_,
        nofun⟩
    next neither =>
      have none_ : ¬∃ row ∈ jr.rows, row.status = .applied := by
        intro some_
        have pos := applied.mpr some_
        by_cases zero : (jr.rows.map (·.status)).countP (· = .rejected) = 0
        · exact neither ⟨pos, zero⟩
        · exact notBoth ⟨pos, zero⟩
      have isStatus : status = .failed := by
        rcases began with began | began <;> rw [began] at fired <;> cases fired <;> rfl
      subst isStatus
      have terminal : JobState.failed ∈ terminalStates := by decide
      exact ⟨terminal, nonePending _, iff_of_false nofun fun only => none_ only.1,
        iff_of_false nofun fun both => none_ both.1, iff_of_true (.inl rfl) none_, nofun⟩

structure Ready (jr : JobRows) (sent : List Dispatch) : Prop where
  runs : jr.job.status = .processing
  layout : Layout jr.job.waveSize jr.job.waveCount jr.rows
  inOrder : InOrder jr.rows sent
  underway : Underway jr sent

theorem Ready.staged (ready : Ready jr sent) : Staged jr sent := by
  refine ⟨ready.layout, ready.inOrder, fun _ => ready.underway, fun ended => ?_⟩
  rw [ready.runs] at ended
  exact absurd ended (by decide)

theorem WaveRan.ready (answers : o1.Answers) (ran : WaveRan o1 now before mid new)
    (ready : Ready before sent) : Ready mid (sent ++ new) := by
  obtain ⟨inOrder, underway⟩ :=
    ran.underway answers ready.layout.positions ready.inOrder ready.underway
  refine ⟨ran.runs ready.runs, ?_, inOrder, underway⟩
  rw [ran.job]
  exact ready.layout.same ran.samePlaces

theorem Ready.settled (ready : Ready jr sent) (last : jr.job.waveCount ≤ jr.job.currentWave) :
    ∀ row ∈ jr.rows, row.status = .applied ∨ row.status = .rejected := by
  intro row mem
  have wave := ready.layout.last row mem
  have known := ready.underway.pending row mem
  have outcome := ready.underway.outcome row mem
  cases status : row.status with
  | applied => exact .inl rfl
  | rejected => exact .inr rfl
  | reverted => exact absurd status outcome
  | pending =>
    have ahead := known.mp status
    omega

theorem Advance.staged (answers : o1.Answers) (advance : Advance o1 now before new after)
    (halts : before.job.onGateFailure = .halt) (ready : Ready before sent) :
    Staged after (sent ++ new) := by
  induction advance generalizing sent with
  | ended ran last finished =>
    have ready := ran.ready answers ready
    obtain ⟨rows, status, ended⟩ := finish_ended (.inl ready.runs) (ready.settled last) finished
    obtain ⟨state, rfl⟩ := finish_same finished
    exact ⟨ready.layout, ready.inOrder, fun open_ => absurd status open_, fun _ => ended⟩
  | halted ran inside held =>
    have ready := ran.ready answers ready
    have status := halt_status ready.runs held
    obtain ⟨state, rfl⟩ := halt_same held
    refine ⟨ready.layout, ready.inOrder,
      fun _ => ⟨ready.underway.pending, ready.underway.outcome, ready.underway.past⟩,
      fun ended => ?_⟩
    rw [status] at ended
    exact absurd ended (by decide)
  | failed ran inside revert =>
    rw [ran.same.onGateFailure, halts] at revert
    cases revert
  | next ran inside rest ih =>
    rw [← List.append_assoc]
    exact ih (ran.same.onGateFailure.trans halts) (ran.ready answers ready)

theorem Staged.began (staged : Staged jr sent)
    (open_ : jr.job.status ∉ terminalStates) {job : WriteConfigJob}
    (waveSize : job.waveSize = jr.job.waveSize) (waveCount : job.waveCount = jr.job.waveCount)
    (currentWave : job.currentWave = jr.job.currentWave)
    (stillOpen : job.status ∉ terminalStates) : Staged ⟨job, jr.rows⟩ sent := by
  have underway := staged.underway open_
  refine ⟨?_, staged.inOrder, fun _ => ⟨?_, underway.outcome, ?_⟩, fun ended => absurd ended stillOpen⟩
  · rw [waveSize, waveCount]
    exact staged.layout
  · rw [currentWave]
    exact underway.pending
  · rw [currentWave]
    exact underway.past

theorem notRun_place (row : WriteConfigSubChange) : SamePlace row (notRun row) := by
  unfold notRun
  split <;> exact ⟨rfl, rfl, rfl⟩

theorem map_places (rows : List WriteConfigSubChange)
    {f : WriteConfigSubChange → WriteConfigSubChange} (same : ∀ row, SamePlace row (f row)) :
    List.Forall₂ SamePlace rows (rows.map f) := by
  induction rows with
  | nil => exact .nil
  | cons row rows ih => exact .cons (same row) ih

variable {setting : Setting}

theorem JobChange.staged (change : JobChange setting jr after)
    (halts : jr.job.onGateFailure = .halt) (staged : Staged jr sent) : Staged after sent := by
  cases change with
  | decided waits may =>
    have open_ : jr.job.status ∉ terminalStates := by rw [waits]; decide
    exact staged.began open_ rfl rfl rfl open_
  | scheduled waits decision =>
    have open_ : jr.job.status ∉ terminalStates := by rw [waits]; decide
    have stillOpen : JobState.scheduled ∉ terminalStates := by decide
    exact staged.began open_ rfl rfl rfl stillOpen
  | operatorHalt waits =>
    have open_ : jr.job.status ∉ terminalStates := by rw [waits]; decide
    exact staged.began open_ rfl rfl rfl open_
  | aborted waits ended =>
    have places := map_places jr.rows notRun_place
    have open_ : jr.job.status ∉ terminalStates := by rw [waits]; decide
    have settled : ∀ row ∈ jr.rows.map notRun, row.status = .applied ∨ row.status = .rejected := by
      intro row mem
      obtain ⟨before, inside, rfl⟩ := List.mem_map.mp mem
      have outcome := (staged.underway open_).outcome before inside
      unfold notRun
      split
      next => exact .inr rfl
      next notPending =>
        cases status : before.status with
        | applied => exact .inl rfl
        | rejected => exact .inr rfl
        | reverted => exact absurd status outcome
        | pending => exact absurd status notPending
    obtain ⟨status, ends⟩ : after.job.status ∈ terminalStates ∧ Ended after := by
      refine (finish_ended ?_ ?_ ended).2
      · exact .inr waits
      · exact settled
    obtain ⟨state, rfl⟩ := finish_same ended
    exact ⟨staged.layout.same places, staged.inOrder.same places,
      fun open_ => absurd status open_, fun _ => ends⟩
  | rejected waits ended =>
    obtain rfl := rejectedJob_same waits ended
    have places := map_places jr.rows (f := fun row =>
      { row with status := .rejected, rejectionReason := some "APPROVAL_REJECTED" })
      fun row => ⟨rfl, rfl, rfl⟩
    have terminal : JobState.rejected ∈ terminalStates := by decide
    have refused : ∀ row ∈ jr.rows.map fun row =>
        { row with status := .rejected, rejectionReason := some "APPROVAL_REJECTED" },
        row.status = .rejected ∧ row.rejectionReason = some "APPROVAL_REJECTED" := by
      intro row mem
      obtain ⟨before, inside, rfl⟩ := List.mem_map.mp mem
      exact ⟨rfl, rfl⟩
    have noneWith : ∀ job, ∀ status ≠ SubChangeStatus.rejected, ¬someRow ⟨job,
        jr.rows.map fun row =>
          { row with status := .rejected, rejectionReason := some "APPROVAL_REJECTED" }⟩ status := by
      rintro job status other ⟨row, mem, rfl⟩
      exact other (refused row mem).1
    refine ⟨staged.layout.same places, staged.inOrder.same places,
      fun open_ => absurd terminal open_, fun _ => ⟨noneWith _ _ nofun, ?_, ?_, ?_, ?_⟩⟩
    · exact iff_of_false nofun fun only => noneWith _ .applied nofun only.1
    · exact iff_of_false nofun fun both => noneWith _ .applied nofun both.1
    · exact iff_of_true (.inr rfl) (noneWith _ .applied nofun)
    · exact fun _ row mem => (refused row mem).2
  | revertRefused _ revert | reverted _ revert =>
    rw [halts] at revert
    cases revert

theorem Goes.ready (goes : Goes setting jr after) (staged : Staged jr sent) : Ready after sent := by
  have open_ : jr.job.status ∉ terminalStates := by
    cases goes with
    | approved waits | started waits | continued waits | swept waits =>
      rw [waits]
      decide
  obtain ⟨pending, outcome, past⟩ := staged.underway open_
  have runs := goes.runs
  cases goes with
  | approved | started => exact ⟨runs, staged.layout, staged.inOrder, pending, outcome, past⟩
  | continued _ _ _ going | swept _ _ going =>
    cases going
    exact ⟨runs, staged.layout, staged.inOrder, pending, outcome, past⟩

theorem newJob_ready (now : Time) (body : WriteConfigRequest) (origin : Origin) (jobId : Nat) :
    Layout (newJob now body origin jobId).job.waveSize (newJob now body origin jobId).job.waveCount
      (newJob now body origin jobId).rows ∧ InOrder (newJob now body origin jobId).rows [] ∧
      Underway (newJob now body origin jobId) [] := by
  refine ⟨newJob_layout, ⟨List.nodup_nil, .nil, fun _ mem => absurd mem List.not_mem_nil⟩, ?_⟩
  refine ⟨fun row mem => ?_, fun row mem => ?_, fun _ mem => absurd mem List.not_mem_nil⟩
  · obtain ⟨status, wave, -⟩ := newJob_rows row mem
    rw [status, wave]
    exact iff_of_true rfl (Nat.succ_pos _)
  · rw [(newJob_rows row mem).1]
    decide

end Waves

section Boards

variable {σ : Type} {o1 : O1Clients σ} {setting : Setting} {b b' : Board} {jr after : JobRows}

theorem sentOf_all {new : List Dispatch} {jobId : Nat}
    (all : ∀ dispatch ∈ new, dispatch.job.jobId = jobId) : sentOf new jobId = new :=
  List.filter_eq_self.mpr fun dispatch mem => by simpa using all dispatch mem

theorem sentOf_none {new : List Dispatch} {jobId : Nat}
    (none_ : ∀ dispatch ∈ new, dispatch.job.jobId ≠ jobId) : sentOf new jobId = [] :=
  List.filter_eq_nil_iff.mpr fun dispatch mem => by simpa using none_ dispatch mem

theorem sentOf_append (sent new : List Dispatch) (jobId : Nat) :
    sentOf (sent ++ new) jobId = sentOf sent jobId ++ sentOf new jobId :=
  List.filter_append ..

def AllStaged (b : Board) : Prop :=
  ∀ jr ∈ b.jobs, jr.job.onGateFailure = .halt → Staged jr (sentOf b.sent jr.job.jobId)

theorem newJob_sent (numbered : Numbered b) (body : WriteConfigRequest) (origin : Origin) :
    sentOf b.sent (newJob setting.now body origin b.fresh).job.jobId = [] :=
  sentOf_none fun dispatch mem => Nat.ne_of_lt (numbered.sent dispatch mem)

theorem AllStaged.add (all : AllStaged b) {made : JobRows} {fresh : Nat}
    (staged : made.job.onGateFailure = .halt → Staged made (sentOf b.sent made.job.jobId)) :
    AllStaged ⟨b.jobs ++ [made], b.sent, fresh⟩ := by
  intro jr mem
  rcases List.mem_append.mp mem with old | new
  · exact all jr old
  · obtain rfl := List.mem_singleton.mp new
    exact staged

theorem AllStaged.replace (all : AllStaged b) (same : SameJob jr.job after.job)
    {new : List Dispatch} (sent : ∀ dispatch ∈ new, dispatch.job.jobId = jr.job.jobId)
    (staged : after.job.onGateFailure = .halt → Staged after (sentOf b.sent jr.job.jobId ++ new)) :
    AllStaged ⟨replaceJob b.jobs after, b.sent ++ new, b.fresh⟩ := by
  intro other mem halts
  rw [sentOf_append]
  rcases mem_replaceJob.mp mem with ⟨old, another⟩ | ⟨rfl, -⟩
  · rw [sentOf_none fun dispatch inside is => another (is.symm.trans
      ((sent dispatch inside).trans same.jobId.symm)), List.append_nil]
    exact all other old halts
  · rw [same.jobId, sentOf_all sent]
    exact staged halts

theorem AllStaged.change (all : AllStaged b) (same : SameJob jr.job after.job)
    (staged : after.job.onGateFailure = .halt → Staged after (sentOf b.sent jr.job.jobId)) :
    AllStaged { b with jobs := replaceJob b.jobs after } := by
  have none_ : ∀ dispatch ∈ ([] : List Dispatch), dispatch.job.jobId = jr.job.jobId :=
    fun _ inside => absurd inside List.not_mem_nil
  have replaced := all.replace same none_ fun halts => by
    rw [List.append_nil]
    exact staged halts
  rwa [List.append_nil] at replaced

theorem newJob_staged (numbered : Numbered b) {body : WriteConfigRequest} {origin : Origin}
    (held : holds body origin = true) : Staged (newJob setting.now body origin b.fresh)
      (sentOf b.sent (newJob setting.now body origin b.fresh).job.jobId) := by
  rw [newJob_sent numbered]
  obtain ⟨layout, inOrder, underway⟩ := newJob_ready setting.now body origin b.fresh
  refine ⟨layout, inOrder, fun _ => underway, fun ended => ?_⟩
  have waits : (newJob setting.now body origin b.fresh).job.status = .pendingApproval := by
    simp only [newJob, held, if_true]
  rw [waits] at ended
  exact absurd ended (by decide)

theorem SetGoing.ready (going : SetGoing setting b jr b') (numbered : Numbered b)
    (all : AllStaged b) (halts : jr.job.onGateFailure = .halt) :
    Ready jr (sentOf b'.sent jr.job.jobId) := by
  have runs := going.runs
  cases going with
  | @made body origin free =>
    rw [newJob_sent numbered]
    obtain ⟨layout, inOrder, underway⟩ := newJob_ready setting.now body origin b.fresh
    exact ⟨runs, layout, inOrder, underway⟩
  | goes mem goes =>
    rw [goes.same.jobId]
    exact goes.ready (all _ mem (goes.same.onGateFailure.symm.trans halts))

theorem SetGoing.staged (going : SetGoing setting b jr b') (numbered : Numbered b)
    (all : AllStaged b) : AllStaged b' := by
  have ready := going.ready numbered all
  cases going with
  | made free => exact all.add fun halts => (ready halts).staged
  | goes mem goes =>
    refine all.change goes.same fun halts => ?_
    rw [← goes.same.jobId]
    exact (ready halts).staged

theorem Move.staged (answers : o1.Answers) (move : Move o1 setting b b') (numbered : Numbered b)
    (all : AllStaged b) : AllStaged b' := by
  cases move with
  | held held => exact all.add fun _ => newJob_staged numbered held
  | changed mem change =>
    refine all.change change.same fun halts => ?_
    have before := change.same.onGateFailure.symm.trans halts
    exact change.staged before (all _ mem before)
  | ran going advance =>
    have all' := going.staged numbered all
    refine all'.replace advance.same (fun dispatch mem => (advance.sentFor dispatch mem).jobId)
      fun halts => ?_
    have before := advance.same.onGateFailure.symm.trans halts
    exact advance.staged answers before (going.ready numbered all before)

theorem Moves.staged (answers : o1.Answers) (moves : Moves o1 setting b b')
    (numbered : Numbered b) (all : AllStaged b) : AllStaged b' := by
  induction moves with
  | refl => exact all
  | tail earlier move ih => exact move.staged answers (Moves.numbered earlier numbered) ih

theorem LostFrom.other (answers : o1.Answers) (numbered : Numbered b) {dispatch : Dispatch}
    (lost : LostFrom o1 setting b dispatch) (mem : jr ∈ b.jobs)
    (halts : jr.job.onGateFailure = .halt) : dispatch.job.jobId ≠ jr.job.jobId := by
  obtain ⟨b₁, b₂, lostJob, moves, going, sentFor, undone⟩ := lost
  have known := Moves.numbered moves numbered
  obtain ⟨jr₁, mem₁, same₁⟩ := Moves.stays moves numbered jr mem
  obtain ⟨jr₂, mem₂, same₂⟩ := going.stays known jr₁ mem₁
  have same := same₁.trans same₂
  intro is
  have isLost : jr₂ = lostJob := List.inj_on_of_nodup_map (going.numbered known).distinct mem₂
    going.mem (same.jobId.trans (is.symm.trans sentFor.jobId))
  have revert := undone answers
  rw [← isLost, same.onGateFailure, halts] at revert
  cases revert

/-- The jobs that have ended are there as they were, and nothing more was sent for them. -/
def KeepsEnded (b b' : Board) : Prop :=
  ∀ jr ∈ b.jobs, jr.job.status ∈ terminalStates →
    jr ∈ b'.jobs ∧ sentOf b'.sent jr.job.jobId = sentOf b.sent jr.job.jobId

theorem KeepsEnded.trans {b'' : Board} (first : KeepsEnded b b') (later : KeepsEnded b' b'') :
    KeepsEnded b b'' := by
  intro jr mem ended
  obtain ⟨mem', same⟩ := first jr mem ended
  obtain ⟨mem'', same'⟩ := later jr mem' ended
  exact ⟨mem'', same'.trans same⟩

theorem JobChange.open_ (change : JobChange setting jr after) : jr.job.status ∉ terminalStates := by
  cases change with
  | decided waits | scheduled waits | operatorHalt waits | aborted waits | revertRefused waits
  | reverted waits =>
    rw [waits]
    decide
  | rejected waits =>
    revert waits
    cases jr.job.status <;> decide

theorem Goes.open_ (goes : Goes setting jr after) : jr.job.status ∉ terminalStates := by
  cases goes with
  | approved waits | started waits | continued waits | swept waits =>
    rw [waits]
    decide

theorem Numbered.keepsEnded (numbered : Numbered b) (mem : jr ∈ b.jobs)
    (open_ : jr.job.status ∉ terminalStates) (same : SameJob jr.job after.job)
    {new : List Dispatch} (sent : ∀ dispatch ∈ new, dispatch.job.jobId = jr.job.jobId) :
    KeepsEnded b ⟨replaceJob b.jobs after, b.sent ++ new, b.fresh⟩ := by
  intro other inside ended
  have apart : other.job.jobId ≠ jr.job.jobId := fun isJr => by
    rw [List.inj_on_of_nodup_map numbered.distinct inside mem isJr] at ended
    exact open_ ended
  refine ⟨mem_replaceJob.mpr (.inl ⟨inside, fun is => apart (is.trans same.jobId)⟩), ?_⟩
  rw [sentOf_append, sentOf_none fun dispatch inNew is => apart (is.symm.trans (sent _ inNew)),
    List.append_nil]

theorem SetGoing.keepsEnded (going : SetGoing setting b jr b') (numbered : Numbered b) :
    KeepsEnded b b' := by
  cases going with
  | made => exact fun _ mem _ => ⟨List.mem_append_left _ mem, rfl⟩
  | goes mem goes =>
    simpa using numbered.keepsEnded mem goes.open_ goes.same (List.forall_mem_nil _)

theorem Move.keepsEnded (move : Move o1 setting b b') (numbered : Numbered b) :
    KeepsEnded b b' := by
  cases move with
  | held => exact fun _ mem _ => ⟨List.mem_append_left _ mem, rfl⟩
  | changed mem change =>
    simpa using numbered.keepsEnded mem change.open_ change.same (List.forall_mem_nil _)
  | ran going advance =>
    refine (going.keepsEnded numbered).trans ((going.numbered numbered).keepsEnded going.mem ?_
      advance.same fun dispatch mem => (advance.sentFor dispatch mem).jobId)
    rw [going.runs]
    decide

theorem Moves.keepsEnded (moves : Moves o1 setting b b') (numbered : Numbered b) :
    KeepsEnded b b' := by
  induction moves with
  | refl => exact fun _ mem _ => ⟨mem, rfl⟩
  | tail earlier move ih => exact ih.trans (move.keepsEnded (Moves.numbered earlier numbered))

theorem LostFrom.open_ (numbered : Numbered b) {dispatch : Dispatch}
    (lost : LostFrom o1 setting b dispatch) (mem : jr ∈ b.jobs)
    (ended : jr.job.status ∈ terminalStates) : dispatch.job.jobId ≠ jr.job.jobId := by
  obtain ⟨b₁, b₂, lostJob, moves, going, sentFor, -⟩ := lost
  have known := Moves.numbered moves numbered
  have kept := (Moves.keepsEnded moves numbered).trans (going.keepsEnded known) jr mem ended
  intro is
  rw [List.inj_on_of_nodup_map (going.numbered known).distinct kept.1 going.mem
    (is.symm.trans sentFor.jobId), going.runs] at ended
  exact absurd ended (by decide)

end Boards

namespace World

variable {σ : Type} {o1 : O1Clients σ} {start world : World σ}
  {trace : List (Runs.Step (World σ) (Operation σ))}

theorem perform_staged (answers : o1.Answers) (numbered : Numbered world.board)
    (all : AllStaged world.board) (operation : Operation σ) :
    AllStaged (world.perform o1 operation).board := by
  obtain ⟨b, lost, moves, jobs, sent, fresh, lostFrom⟩ :=
    @perform_leaves σ o1 world numbered operation
  have known := Moves.numbered moves numbered
  have staged := Moves.staged answers moves numbered all
  intro jr mem halts
  rw [board, boardOf, jobs] at mem
  rw [board, boardOf, sent, sentOf_append, sentOf_none fun dispatch inside =>
    (lostFrom dispatch inside).1.other answers known mem halts, List.append_nil]
  exact staged jr mem halts

/-- In every run every job that halts at a failed gate is staged as its request says: no
sub-change is sent twice or out of turn, what is pending is what is to come, and the job ends
in the state of its outcomes. -/
theorem jobs_staged (answers : o1.Answers) (initial : Initial start)
    (run : Run (Step o1) start trace world) : ∀ jr ∈ world.store.jobs,
    jr.job.onGateFailure = .halt → Staged jr (sentOf world.wire.sent jr.job.jobId) := by
  have reached := run.invariant (fun world => Numbered world.board ∧ AllStaged world.board)
    ⟨initial.numbered, fun jr mem => by
      rw [board, boardOf, initial.store] at mem
      cases mem⟩
    fun world operation world' ⟨numbered, all⟩ step => by
      subst step
      exact ⟨perform_numbered numbered operation, perform_staged answers numbered all operation⟩
  exact reached.2

/-- A job that pauses after the first of its two waves. -/
theorem paused_job_staged : (paused []).store.jobs.map (·.job.status) = [.halted] ∧
    ∀ jr ∈ (paused []).store.jobs, jr.job.onGateFailure = .halt →
      Staged jr (sentOf (paused []).wire.sent jr.job.jobId) :=
  ⟨by decide +kernel, jobs_staged applying_answers ⟨rfl, rfl⟩ (run_all twoElementWorld _)⟩

theorem perform_keepsEnded (numbered : Numbered world.board) (operation : Operation σ) :
    KeepsEnded world.board (world.perform o1 operation).board := by
  obtain ⟨b, lost, moves, jobs, sent, -, lostFrom⟩ :=
    @perform_leaves σ o1 world numbered operation
  refine (Moves.keepsEnded moves numbered).trans fun jr mem ended =>
    ⟨by rwa [board, boardOf, jobs], ?_⟩
  rw [board, boardOf, sent, sentOf_append, sentOf_none fun dispatch inside =>
    (lostFrom dispatch inside).1.open_ (Moves.numbered moves numbered) mem ended, List.append_nil]

/-- A job that has ended stays as it is in every run, and nothing more is sent for it. -/
theorem ended_jobs_final (initial : Initial start) (run : Run (Step o1) start trace world) :
    ∀ t ∈ trace, KeepsEnded t.after.board world.board :=
  run.later_of_guarded (fun world => Numbered world.board) (fun _ _ => True) initial.numbered
    (fun _ _ _ numbered _ step => step_numbered numbered step)
    (fun s s' => KeepsEnded s.board s'.board) (fun _ _ mem _ => ⟨mem, rfl⟩)
    (fun _ _ _ => .trans)
    (fun _ operation _ numbered _ step => step ▸ perform_keepsEnded numbered operation)
    fun _ _ => trivial

/-- The operator aborts the job while it pauses. -/
theorem aborted_job_final :
    let abort := Operation.abort {} 0 { requestedBy := "operator" }
    (paused [abort]).store.jobs.map (·.job.status) = [.partialSuccess] ∧
      ∀ t ∈ stepsOf (perform applying) twoElementWorld (duringPause [abort]),
        KeepsEnded t.after.board (paused [abort]).board :=
  ⟨by decide +kernel, ended_jobs_final ⟨rfl, rfl⟩ (run_all twoElementWorld _)⟩

end World

end Smo.RanNfOam.ConfigJobs
