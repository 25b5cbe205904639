import Smo.RanNfOam.ConfigJobs.Dispatch

/-! What dispatching a wave does: it sends sub-changes of the wave, settles every row, and,
when the O1 clients answer, sends none of them twice, whatever shares a candidate
transaction. -/
namespace Smo.RanNfOam.ConfigJobs

open Transaction

/-- The clients answer, and a candidate transaction answers for each of its changes. -/
structure O1Clients.Answers {σ : Type} (o1 : O1Clients σ) : Prop where
  edit : ∀ network me endpoint change, (o1.sendEdit network me endpoint change).2.isSome
  edits : ∀ network endpoint changes, ∃ answers,
    (o1.sendEdits network endpoint changes).2 = some answers ∧ answers.length = changes.length

structure Settled (row row' : WriteConfigSubChange) : Prop where
  position : row'.position = row.position
  wave : row'.wave = row.wave
  change : row'.change = row.change
  outcome : row'.status = .applied ∨ row'.status = .rejected

theorem settle_settled (site : Site) (row : WriteConfigSubChange) (outcome : Outcome) :
    Settled row (settle site row outcome) := by
  refine ⟨rfl, rfl, rfl, ?_⟩
  unfold settle
  cases outcome.applied
  · exact .inr rfl
  · exact .inl rfl

def Wire.Log {σ : Type} (sent : List Dispatch) (fresh : Nat) (wire : Wire σ) : Prop :=
  wire.sent = sent ∧ wire.fresh = fresh

section Sending

variable {σ : Type} {o1 : O1Clients σ} {site : Site} {now : Time} {sent : List Dispatch}
  {fresh : Nat}

theorem record_log (more : List Dispatch) {raises : Wire σ → Prop} :
    Ensures (Wire.Log sent fresh) (record more) (fun _ => Wire.Log (sent ++ more) fresh)
      raises := by
  rintro wire ⟨rfl, rfl⟩
  exact ⟨rfl, rfl⟩

theorem get_log {raises : Wire σ → Prop} :
    Ensures (Wire.Log sent fresh) (get : Line σ (Wire σ)) (fun _ => Wire.Log sent fresh) raises :=
  fun _ holds => holds

theorem wait_log (delay : Nat) {raises : Wire σ → Prop} :
    Ensures (Wire.Log sent fresh) (wait o1 delay) (fun _ => Wire.Log sent fresh) raises :=
  fun _ holds => holds

def Unanswered (o1 : O1Clients σ) (sent : List Dispatch) (fresh : Nat) (wire : Wire σ) : Prop :=
  Wire.Log sent fresh wire ∧ ¬o1.Answers

theorem sendOnce_log (me : ManagedEntity) (endpoint : O1AdaptorEndpoint) (change : Change) :
    Ensures (Wire.Log sent fresh) (sendOnce o1 me endpoint change)
      (fun _ => Wire.Log sent fresh) (Unanswered o1 sent fresh) := by
  intro wire holds
  unfold sendOnce
  rcases answer : o1.sendEdit wire.network me endpoint change with ⟨network, none | result⟩
  · refine ⟨holds, fun answers => ?_⟩
    have some := answers.edit wire.network me endpoint change
    rw [answer] at some
    cases some
  · exact holds

theorem sendGroupOnce_log (endpoint : O1AdaptorEndpoint) (changes : List Change) :
    Ensures (Wire.Log sent fresh) (sendGroupOnce o1 endpoint changes)
      (fun results wire => Wire.Log sent fresh wire ∧
        (o1.Answers → results.length = changes.length)) (Unanswered o1 sent fresh) := by
  intro wire holds
  unfold sendGroupOnce
  rcases answer : o1.sendEdits wire.network endpoint changes with ⟨network, none | results⟩
  · refine ⟨holds, fun answers => ?_⟩
    obtain ⟨_, some, _⟩ := answers.edits wire.network endpoint changes
    rw [answer] at some
    cases some
  · refine ⟨holds, fun answers => ?_⟩
    obtain ⟨_, some, length⟩ := answers.edits wire.network endpoint changes
    rw [answer] at some
    cases some
    exact length

theorem dispatchAttempts_log (me : ManagedEntity) (endpoint : O1AdaptorEndpoint)
    (change : Change) (started : Nat) (delays : List Nat) (attempts : Nat)
    (reason detail : Option String) :
    Ensures (Wire.Log sent fresh)
      (dispatchAttempts o1 site me endpoint change started delays attempts reason detail)
      (fun _ => Wire.Log sent fresh) (Unanswered o1 sent fresh) := by
  induction delays generalizing attempts reason detail with
  | nil => exact fun _ holds => holds
  | cons delay delays ih =>
    unfold dispatchAttempts
    apply get_log.bind
    intro wire
    apply Ensures.ite
    · exact fun _ _ holds => holds
    intro _
    apply (wait_log delay).bind
    intro _
    apply (sendOnce_log me endpoint change).bind
    intro result
    apply Ensures.ite
    · exact fun _ _ holds => holds
    intro _
    apply Ensures.ite
    · exact fun _ _ holds => holds
    · exact fun _ => ih _ _ _

theorem groupAttempts_log (endpoint : O1AdaptorEndpoint) (changes : List Change) (started : Nat)
    (delays : List Nat) (attempts : Nat) (results : List EditResult)
    (begins : (delays ≠ [] ∧ attempts = 0) ∨ (o1.Answers → results.length = changes.length)) :
    Ensures (Wire.Log sent fresh)
      (groupAttempts o1 site endpoint changes started delays attempts results)
      (fun result wire => Wire.Log sent fresh wire ∧
        (o1.Answers → result.1.length = changes.length)) (Unanswered o1 sent fresh) := by
  induction delays generalizing attempts results with
  | nil =>
    intro wire holds
    have enough := begins.resolve_left fun first => first.1 rfl
    exact ⟨holds, enough⟩
  | cons delay delays ih =>
    unfold groupAttempts
    apply get_log.bind
    intro wire
    apply Ensures.ite
    · intro spent wire holds
      refine ⟨holds, begins.resolve_left fun first => ?_⟩
      simp [budgetSpent, first.2] at spent
    intro _
    apply (wait_log delay).bind
    intro _
    apply (sendGroupOnce_log endpoint changes).bind
    intro answers
    apply Ensures.ite
    · exact fun _ _ holds => holds
    · intro _ wire holds
      exact ih _ _ (.inr holds.2) wire holds.1

theorem dispatchAlone_log (job : WriteConfigJob) (me : ManagedEntity)
    (endpoint : O1AdaptorEndpoint) (row : WriteConfigSubChange) :
    Ensures (Wire.Log sent fresh) (dispatchAlone o1 site now job me endpoint row)
      (fun _ => Wire.Log (sent ++ [dispatchOf now job row]) fresh)
      (Unanswered o1 (sent ++ [dispatchOf now job row]) fresh) := by
  unfold dispatchAlone
  apply get_log.bind
  intro wire
  apply (record_log _).bind
  intro _
  apply (dispatchAttempts_log me endpoint row.change _ _ _ _ _).bind
  intro outcome wire' holds
  exact holds

theorem dispatchGroup_log (job : WriteConfigJob) (me : ManagedEntity)
    (endpoint : O1AdaptorEndpoint) (members : List (WriteConfigSubChange × Nat)) :
    Ensures (Wire.Log sent fresh) (dispatchGroup o1 site now job me endpoint members)
      (fun outcomes wire =>
        Wire.Log (sent ++ members.map fun member => dispatchOf now job member.1) fresh wire ∧
          (∀ outcome ∈ outcomes, outcome.1 ∈ members.map (·.2)) ∧
          (o1.Answers → outcomes.map (·.1) = members.map (·.2)))
      (Unanswered o1 (sent ++ members.map fun member => dispatchOf now job member.1) fresh) := by
  unfold dispatchGroup
  apply get_log.bind
  intro wire
  apply (record_log _).bind
  intro _
  apply (groupAttempts_log endpoint _ _ _ _ _ (.inl ⟨site.tried, rfl⟩)).bind
  rintro ended wire' ⟨log, length⟩
  refine ⟨log, ?_, fun answers => ?_⟩
  · intro outcome mem
    obtain ⟨entry, inZip, rfl⟩ := List.mem_map.mp mem
    exact List.mem_map_of_mem (List.of_mem_zip inZip).1
  · have enough := length answers
    rw [List.map_map]
    change (members.zip _).map ((·.2) ∘ (·.1)) = _
    rw [← List.map_map, List.map_fst_zip]
    simp only [List.length_zip, List.length_map, enough, Nat.min_self, Nat.le_refl]

variable {wave rest : List (WriteConfigSubChange × Check)} {known : List (Nat × Outcome)}
  {index : Nat} {key : String}

def Placed (wave : List (WriteConfigSubChange × Check)) (entry : WriteConfigSubChange × Nat) :
    Prop :=
  ∃ check, wave[entry.2]? = some (entry.1, check)

variable {entry : WriteConfigSubChange × Nat} {check : Check} {outcomes : List (Nat × Outcome)}
  {entries : List (WriteConfigSubChange × Nat)} {rows : List WriteConfigSubChange}

theorem mem_keyed : entry ∈ keyed wave key ↔
    ∃ check, wave[entry.2]? = some (entry.1, check) ∧ transactionGroupKey check = some key := by
  simp only [keyed, List.mem_map, List.mem_filter, List.mem_zipIdx_iff_getElem?, Prod.exists,
    decide_eq_true_eq]
  constructor
  · rintro ⟨row, check, place, ⟨at_, keyed⟩, rfl⟩
    exact ⟨check, at_, keyed⟩
  · rintro ⟨check, at_, keyed⟩
    exact ⟨entry.1, check, entry.2, ⟨at_, keyed⟩, rfl⟩

theorem keyed_nodup : ((keyed wave key).map (·.2)).Nodup := by
  rw [keyed, List.map_map]
  change ((wave.zipIdx.filter _).map (·.2)).Nodup
  have all : (wave.zipIdx.map (·.2)).Nodup := by
    rw [List.zipIdx_map_snd]
    exact List.nodup_range'
  exact all.sublist (List.filter_sublist.map _)

/-- The outcomes that are known are those of whole candidate transactions, and of every one
that the rows so far belong to. -/
structure KnownOutcomes (wave : List (WriteConfigSubChange × Check)) (index : Nat)
    (known : List (Nat × Outcome)) : Prop where
  whole : ∀ place, (known.lookup place).isSome → ∃ key row, (row, place) ∈ keyed wave key ∧
    1 < (keyed wave key).length ∧ ∀ entry ∈ keyed wave key, (known.lookup entry.2).isSome
  past : ∀ key, 1 < (keyed wave key).length → ∀ entry ∈ keyed wave key, entry.2 < index →
    (known.lookup entry.2).isSome

theorem KnownOutcomes.start : KnownOutcomes wave 0 [] := by
  refine ⟨fun place some => ?_, fun _ _ _ _ before => absurd before (Nat.not_lt_zero _)⟩
  simp only [List.lookup_nil, Option.isSome_none, Bool.false_eq_true] at some

theorem KnownOutcomes.alone (ok : KnownOutcomes wave index known) {place : Nat}
    {row : WriteConfigSubChange} (placed : wave[place]? = some (row, check))
    (few : (membersOf wave check).length ≤ 1) : known.lookup place = none := by
  by_contra some
  obtain ⟨key, row', member, many, -⟩ := ok.whole place (Option.isSome_iff_ne_none.mpr some)
  obtain ⟨check', placed', grouped⟩ := mem_keyed.mp member
  obtain ⟨-, rfl⟩ := Prod.mk.inj (Option.some.inj (placed.symm.trans placed'))
  simp only [membersOf, grouped] at few
  omega

theorem KnownOutcomes.skip (ok : KnownOutcomes wave index known) {row : WriteConfigSubChange}
    (placed : wave[index]? = some (row, check))
    (few : 1 < (membersOf wave check).length → (known.lookup index).isSome) :
    KnownOutcomes wave (index + 1) known := by
  refine ⟨ok.whole, fun key many entry member before => ?_⟩
  by_cases earlier : entry.2 < index
  · exact ok.past key many entry member earlier
  · have here : entry.2 = index := by omega
    obtain ⟨check', placed', grouped⟩ := mem_keyed.mp member
    rw [here, placed] at placed'
    obtain ⟨-, rfl⟩ := Prod.mk.inj (Option.some.inj placed')
    rw [here]
    apply few
    rw [membersOf, grouped]
    exact many

theorem KnownOutcomes.fresh_group (ok : KnownOutcomes wave index known) {row : WriteConfigSubChange}
    (member : (row, index) ∈ keyed wave key) (unknown : known.lookup index = none)
    (other : entry ∈ keyed wave key) : known.lookup entry.2 = none := by
  by_contra some
  obtain ⟨key', row', member', -, all⟩ := ok.whole entry.2 (Option.isSome_iff_ne_none.mpr some)
  obtain ⟨check, placed, grouped⟩ := mem_keyed.mp other
  obtain ⟨check', placed', grouped'⟩ := mem_keyed.mp member'
  obtain ⟨-, rfl⟩ := Prod.mk.inj (Option.some.inj (placed.symm.trans placed'))
  obtain rfl := Option.some.inj (grouped.symm.trans grouped')
  have found := all _ member
  rw [unknown] at found
  cases found

theorem lookup_added (known : List (Nat × Outcome))
    (same : outcomes.map (·.1) = (keyed wave key).map (·.2)) (place : Nat) :
    ((known ++ outcomes).lookup place).isSome ↔
      (known.lookup place).isSome ∨ place ∈ (keyed wave key).map (·.2) := by
  rw [List.lookup_append, Option.isSome_or, Bool.or_eq_true, ← same]
  simp [List.lookup_isSome_iff]

theorem KnownOutcomes.add_group (ok : KnownOutcomes wave index known)
    (many : 1 < (keyed wave key).length) (same : outcomes.map (·.1) = (keyed wave key).map (·.2)) :
    KnownOutcomes wave index (known ++ outcomes) := by
  have found := lookup_added known same
  refine ⟨fun place some => ?_, fun key' many' entry member before => ?_⟩
  · rcases (found place).mp some with old | new
    · obtain ⟨key', row, member, many', all⟩ := ok.whole place old
      exact ⟨key', row, member, many', fun entry inside =>
        (found _).mpr (.inl (all entry inside))⟩
    · obtain ⟨entry, member, rfl⟩ := List.mem_map.mp new
      exact ⟨key, entry.1, member, many, fun entry inside =>
        (found _).mpr (.inr (List.mem_map_of_mem inside))⟩
  · exact (found _).mpr (.inl (ok.past key' many' entry member before))

/-- The rows sent from a place in the wave on; none of them twice when the clients answer. -/
structure SentFrom (o1 : O1Clients σ) (wave : List (WriteConfigSubChange × Check)) (index : Nat)
    (known : List (Nat × Outcome)) (entries : List (WriteConfigSubChange × Nat)) : Prop where
  placed : ∀ entry ∈ entries, Placed wave entry
  once : o1.Answers → (entries.map (·.2)).Nodup
  later : o1.Answers → ∀ entry ∈ entries, index ≤ entry.2 ∧ known.lookup entry.2 = none

theorem SentFrom.nil : SentFrom o1 wave index known [] :=
  ⟨fun _ mem => absurd mem List.not_mem_nil, fun _ => List.nodup_nil,
    fun _ _ mem => absurd mem List.not_mem_nil⟩

theorem SentFrom.skip (sent : SentFrom o1 wave (index + 1) known entries) :
    SentFrom o1 wave index known entries :=
  ⟨sent.placed, sent.once, fun answers entry mem =>
    ⟨Nat.le_of_succ_le (sent.later answers entry mem).1, (sent.later answers entry mem).2⟩⟩

theorem SentFrom.cons {entries : List (WriteConfigSubChange × Nat)} {row : WriteConfigSubChange}
    {check : Check} (sent : SentFrom o1 wave (index + 1) known entries)
    (placed : wave[index]? = some (row, check))
    (unknown : o1.Answers → known.lookup index = none) :
    SentFrom o1 wave index known ((row, index) :: entries) := by
  refine ⟨?_, fun answers => ?_, fun answers => ?_⟩
  · rintro entry (- | ⟨_, mem⟩)
    · exact ⟨check, placed⟩
    · exact sent.placed entry mem
  · rw [List.map_cons, List.nodup_cons]
    refine ⟨fun again => ?_, sent.once answers⟩
    obtain ⟨entry, mem, same⟩ := List.mem_map.mp again
    have after := (sent.later answers entry mem).1
    omega
  · rintro entry (- | ⟨_, mem⟩)
    · exact ⟨Nat.le_refl _, unknown answers⟩
    · exact sent.skip.later answers entry mem

theorem SentFrom.group {row : WriteConfigSubChange}
    (sent : SentFrom o1 wave (index + 1) (known ++ outcomes) entries)
    (ok : o1.Answers → KnownOutcomes wave index known) (many : 1 < (keyed wave key).length)
    (member : (row, index) ∈ keyed wave key) (unknown : known.lookup index = none)
    (same : o1.Answers → outcomes.map (·.1) = (keyed wave key).map (·.2)) :
    SentFrom o1 wave index known (keyed wave key ++ entries) := by
  have fresh : o1.Answers → ∀ entry ∈ entries,
      known.lookup entry.2 = none ∧ entry.2 ∉ (keyed wave key).map (·.2) := by
    intro answers entry mem
    have none_ := (sent.later answers entry mem).2
    rw [List.lookup_append, Option.or_eq_none_iff] at none_
    refine ⟨none_.1, fun inside => ?_⟩
    rw [← same answers] at inside
    obtain ⟨outcome, inOutcomes, place⟩ := List.mem_map.mp inside
    have found : (outcomes.lookup entry.2).isSome := by
      rw [List.lookup_isSome_iff]
      exact ⟨outcome, inOutcomes, by simp [place]⟩
    rw [none_.2] at found
    cases found
  refine ⟨?_, fun answers => ?_, fun answers => ?_⟩
  · intro entry mem
    rcases List.mem_append.mp mem with inGroup | later
    · obtain ⟨check, placed, -⟩ := mem_keyed.mp inGroup
      exact ⟨check, placed⟩
    · exact sent.placed entry later
  · rw [List.map_append, List.nodup_append]
    refine ⟨keyed_nodup, sent.once answers, fun place inGroup other later same => ?_⟩
    subst same
    obtain ⟨entry, mem, rfl⟩ := List.mem_map.mp later
    exact (fresh answers entry mem).2 inGroup
  · intro entry mem
    rcases List.mem_append.mp mem with inGroup | later
    · have unknown' := (ok answers).fresh_group member unknown inGroup
      refine ⟨?_, unknown'⟩
      by_contra before
      have known' := (ok answers).past key many entry inGroup (by omega)
      rw [unknown'] at known'
      cases known'
    · exact ⟨Nat.le_of_succ_le (sent.later answers entry later).1, (fresh answers entry later).1⟩

def RowsRan (o1 : O1Clients σ) (now : Time) (job : WriteConfigJob)
    (wave rest : List (WriteConfigSubChange × Check)) (index : Nat) (known : List (Nat × Outcome))
    (sent : List Dispatch) (fresh : Nat) (result : List WriteConfigSubChange × List Alarm)
    (wire : Wire σ) : Prop :=
  List.Forall₂ Settled (rest.map (·.1)) result.1 ∧
    ∃ entries : List (WriteConfigSubChange × Nat), SentFrom o1 wave index known entries ∧
      Wire.Log (sent ++ entries.map fun entry => dispatchOf now job entry.1) fresh wire

def RowsLost (o1 : O1Clients σ) (now : Time) (job : WriteConfigJob)
    (wave : List (WriteConfigSubChange × Check)) (sent : List Dispatch) (fresh : Nat)
    (wire : Wire σ) : Prop :=
  ∃ entries : List (WriteConfigSubChange × Nat), (∀ entry ∈ entries, Placed wave entry) ∧
    Unanswered o1 (sent ++ entries.map fun entry => dispatchOf now job entry.1) fresh wire

variable {job : WriteConfigJob} {row : WriteConfigSubChange}

theorem RowsLost.after {wire : Wire σ} (placed : ∀ entry ∈ entries, Placed wave entry)
    (lost : RowsLost o1 now job wave
      (sent ++ entries.map fun entry => dispatchOf now job entry.1) fresh wire) :
    RowsLost o1 now job wave sent fresh wire := by
  obtain ⟨more, placed', unanswered⟩ := lost
  refine ⟨entries ++ more, fun entry mem => ?_, ?_⟩
  · rcases List.mem_append.mp mem with first | second
    · exact placed entry first
    · exact placed' entry second
  · rwa [List.map_append, ← List.append_assoc]

theorem group_lost {wire : Wire σ}
    (unanswered : Unanswered o1
      (sent ++ (keyed wave key).map fun member => dispatchOf now job member.1) fresh wire) :
    RowsLost o1 now job wave sent fresh wire := by
  refine ⟨keyed wave key, fun entry mem => ?_, unanswered⟩
  obtain ⟨check, placed, -⟩ := mem_keyed.mp mem
  exact ⟨check, placed⟩

theorem drop_succ_of_cons {α : Type} {xs rest : List α} {x : α} {n : Nat}
    (h : x :: rest = xs.drop n) : xs[n]? = some x ∧ rest = xs.drop (n + 1) := by
  have first : (xs.drop n)[0]? = some x := by rw [← h]; rfl
  rw [List.getElem?_drop, Nat.add_zero] at first
  refine ⟨first, ?_⟩
  rw [← List.drop_drop, ← h]
  rfl

theorem key_of_many (many : (membersOf wave check).length > 1) :
    ∃ key, transactionGroupKey check = some key := by
  cases grouped : transactionGroupKey check with
  | none => simp [membersOf, grouped] at many
  | some key => exact ⟨key, rfl⟩

theorem dispatchRows_sends (drops : rest = wave.drop index)
    (ok : o1.Answers → KnownOutcomes wave index known) :
    Ensures (Wire.Log sent fresh) (dispatchRows o1 site now job wave rest index known)
      (RowsRan o1 now job wave rest index known sent fresh)
      (RowsLost o1 now job wave sent fresh) := by
  induction rest generalizing index known sent with
  | nil =>
    intro wire log
    exact ⟨.nil, [], .nil, by simpa using log⟩
  | cons entry rest ih =>
    obtain ⟨placed, drops'⟩ := drop_succ_of_cons drops
    obtain ⟨row, reason | ⟨me, endpoint⟩⟩ := entry
    · unfold dispatchRows
      have skipped : o1.Answers → KnownOutcomes wave (index + 1) known := fun answers =>
        (ok answers).skip placed fun many => by simp [membersOf, transactionGroupKey] at many
      apply (ih drops' skipped).bind
      rintro later wire ⟨settled, entries, sentFrom, log⟩
      exact ⟨.cons ⟨rfl, rfl, rfl, .inr rfl⟩ settled, entries, sentFrom.skip, log⟩
    · have goesOn : ∀ {known' : List (Nat × Outcome)}
          (sentNow : List (WriteConfigSubChange × Nat)) (outcome : Outcome),
          (∀ entry ∈ sentNow, Placed wave entry) →
          (o1.Answers → KnownOutcomes wave (index + 1) known') →
          (∀ entries, SentFrom o1 wave (index + 1) known' entries →
            SentFrom o1 wave index known (sentNow ++ entries)) →
          Ensures (Wire.Log (sent ++ sentNow.map fun entry => dispatchOf now job entry.1) fresh)
            (do
              let later ← dispatchRows o1 site now job wave rest (index + 1) known'
              return (settle site row outcome :: later.1, dispatchAlarm now row outcome ++ later.2))
            (RowsRan o1 now job wave ((row, .ok (me, endpoint)) :: rest) index known sent fresh)
            (RowsLost o1 now job wave sent fresh) := by
        intro known' sentNow outcome placedNow ok' joins
        apply ((ih drops' ok').weaken (fun _ log => log) (fun _ _ ran => ran)
          fun _ lost => lost.after placedNow).bind
        rintro later wire ⟨settled, entries, sentFrom, log⟩
        refine ⟨.cons (settle_settled site row outcome) settled, sentNow ++ entries,
          joins entries sentFrom, ?_⟩
        rwa [List.map_append, ← List.append_assoc]
      unfold dispatchRows
      apply Ensures.ite
      · intro many
        obtain ⟨key, grouped⟩ := key_of_many many
        simp only [membersOf, grouped] at many ⊢
        have member : (row, index) ∈ keyed wave key := mem_keyed.mpr ⟨_, placed, grouped⟩
        unfold knownOutcomes
        by_cases isKnown : (known.lookup index).isSome
        · rw [if_pos isKnown]
          obtain ⟨outcome, found⟩ := Option.isSome_iff_exists.mp isKnown
          simp only [pure_bind, found]
          have none_ : ∀ entry ∈ ([] : List (WriteConfigSubChange × Nat)), Placed wave entry :=
            fun _ mem => absurd mem List.not_mem_nil
          have all := goesOn [] outcome none_ (fun answers => (ok answers).skip placed fun _ => isKnown)
            fun entries sentFrom => sentFrom.skip
          simpa using all
        · rw [if_neg isKnown]
          have unknown : known.lookup index = none := Option.not_isSome_iff_eq_none.mp isKnown
          simp only [bind_assoc, pure_bind]
          apply ((dispatchGroup_log job me endpoint (keyed wave key)).weaken (fun _ log => log)
            (fun _ _ ended => ended) fun _ lost => group_lost lost).bind
          intro outcomes wire ⟨log, inside, same⟩
          have added : o1.Answers → KnownOutcomes wave (index + 1) (known ++ outcomes) := by
            intro answers
            refine ((ok answers).add_group many (same answers)).skip placed fun _ => ?_
            exact (lookup_added known (same answers) index).mpr (.inr (List.mem_map_of_mem member))
          cases found : (known ++ outcomes).lookup index with
          | none =>
            refine group_lost ⟨log, fun answers => ?_⟩
            have some := (lookup_added known (same answers) index).mpr
              (.inr (List.mem_map_of_mem member))
            rw [found] at some
            cases some
          | some outcome =>
            refine goesOn (keyed wave key) outcome (fun entry mem => ?_) added (fun entries sentFrom => ?_) wire log
            · obtain ⟨check, placed, -⟩ := mem_keyed.mp mem
              exact ⟨check, placed⟩
            · exact sentFrom.group ok many member unknown same
      · intro few
        have alone : o1.Answers → known.lookup index = none := fun answers =>
          (ok answers).alone placed (by omega)
        have here : ∀ entry ∈ [(row, index)], Placed wave entry := by
          rintro entry (- | ⟨_, mem⟩)
          · exact ⟨_, placed⟩
          · cases mem
        apply ((dispatchAlone_log job me endpoint row).weaken (fun _ log => log) (fun _ _ log => log)
          fun _ lost => ⟨[(row, index)], here, lost⟩).bind
        intro outcome
        exact goesOn [(row, index)] outcome here
          (fun answers => (ok answers).skip placed fun many => absurd many few)
          fun entries sentFrom => sentFrom.cons placed alone

/-- The dispatches of sub-changes of a wave; of each one at most, when the clients answer. -/
structure WaveSent (o1 : O1Clients σ) (now : Time) (job : WriteConfigJob)
    (rows : List WriteConfigSubChange) (new : List Dispatch) : Prop where
  of_wave : ∀ dispatch ∈ new, ∃ row ∈ rows, dispatch = dispatchOf now job row
  once : o1.Answers → (rows.map (·.position)).Nodup → (new.map (·.position)).Nodup

theorem of_placed {check : WriteConfigSubChange → Check}
    (placed : Placed (rows.map fun row => (row, check row)) entry) :
    rows[entry.2]? = some entry.1 := by
  obtain ⟨_, found⟩ := placed
  rw [List.getElem?_map, Option.map_eq_some_iff] at found
  obtain ⟨row, found, same⟩ := found
  rw [found, ← (Prod.mk.inj same).1]

theorem waveSent_of_entries {check : WriteConfigSubChange → Check}
    (sent : SentFrom o1 (rows.map fun row => (row, check row)) 0 [] entries) :
    WaveSent o1 now job rows (entries.map fun entry => dispatchOf now job entry.1) := by
  refine ⟨fun dispatch mem => ?_, fun answers positions => ?_⟩
  · obtain ⟨entry, inEntries, rfl⟩ := List.mem_map.mp mem
    have found := of_placed (sent.placed entry inEntries)
    exact ⟨entry.1, List.mem_of_getElem? found, rfl⟩
  · have places := sent.once answers
    rw [List.map_map, List.Nodup, List.pairwise_map]
    rw [List.Nodup, List.pairwise_map] at places
    refine places.imp_of_mem fun {a b} memA memB different same => different ?_
    have foundA := of_placed (sent.placed a memA)
    have foundB := of_placed (sent.placed b memB)
    obtain ⟨inA, -⟩ := List.getElem?_eq_some_iff.mp foundA
    have atA' : (rows.map (·.position))[a.2]? = some a.1.position := by
      rw [List.getElem?_map, foundA, Option.map_some]
    have atB' : (rows.map (·.position))[b.2]? = some b.1.position := by
      rw [List.getElem?_map, foundB, Option.map_some]
    rw [← show a.1.position = b.1.position from same] at atB'
    exact (List.getElem?_inj (by simpa using inA) positions).mp (atA'.trans atB'.symm)

theorem dispatchWave_sends (rows : List WriteConfigSubChange) :
    Ensures (Wire.Log sent fresh) (dispatchWave o1 site now job rows)
      (fun result wire => List.Forall₂ Settled rows result.1 ∧
        ∃ new, WaveSent o1 now job rows new ∧ Wire.Log (sent ++ new) fresh wire)
      (fun wire => ∃ new, (∀ dispatch ∈ new, ∃ row ∈ rows, dispatch = dispatchOf now job row) ∧
        Unanswered o1 (sent ++ new) fresh wire) := by
  unfold dispatchWave
  refine (dispatchRows_sends (List.drop_zero).symm fun _ => .start).weaken (fun _ log => log)
    (fun result wire ran => ?_) fun wire lost => ?_
  · obtain ⟨settled, entries, sentFrom, log⟩ := ran
    rw [List.map_map] at settled
    have same : rows.map ((·.1) ∘ fun row => (row, dispatchBlocker site now row.change)) = rows :=
      List.map_id _
    rw [same] at settled
    exact ⟨settled, _, waveSent_of_entries sentFrom, log⟩
  · obtain ⟨entries, placed, unanswered⟩ := lost
    refine ⟨_, fun dispatch mem => ?_, unanswered⟩
    obtain ⟨entry, inEntries, rfl⟩ := List.mem_map.mp mem
    exact ⟨entry.1, List.mem_of_getElem? (of_placed (placed entry inEntries)), rfl⟩

end Sending

end Smo.RanNfOam.ConfigJobs
