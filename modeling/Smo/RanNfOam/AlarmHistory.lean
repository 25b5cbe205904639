import Smo.RanNfOam.Alarms

/-! The alarm list follows the fault state and its history tells how it came to be, in every run in
which no request commits on what another has changed since. -/
namespace Smo.RanNfOam.Alarms

section Following

variable {β : Type} [DecidableEq β]

def follow (start : β) : List (β × β) → Option β
  | [] => some start
  | (old, new) :: rest => if old = start then follow new rest else none

theorem follow_append (start : β) (earlier later : List (β × β)) :
    follow start (earlier ++ later) = (follow start earlier).bind (follow · later) := by
  induction earlier generalizing start with
  | nil => rfl
  | cons first rest ih =>
    obtain ⟨old, new⟩ := first
    simp only [List.cons_append, follow]
    split_ifs with same
    · exact ih new
    · rfl

theorem follow_change {start old new now : β} {earlier : List (β × β)} (led : follow start earlier = some now)
    (fresh : new = old ∨ now = old) :
    follow start (earlier ++ if old = new then [] else [(old, new)]) = some (column now old new) := by
  rw [follow_append, led, Option.bind_some, column]
  split_ifs with same same' same'
  · rfl
  · exact absurd same.symm same'
  · exact absurd same'.symm same
  · have is : old = now := (fresh.resolve_left same').symm
    simp [follow, is]

end Following

def severities (history : List Entry) (alarm : Nat) : List (Option Severity × Option Severity) :=
  history.filterMap fun entry =>
    if entry.alarm = alarm then
      match entry.change with
      | .raised toValue => some (none, some toValue)
      | .severity fromValue toValue => some (some fromValue, some toValue)
      | .ack _ _ => none
    else none

def ackStates (history : List Entry) (alarm : Nat) : List (AckState × AckState) :=
  history.filterMap fun entry =>
    if entry.alarm = alarm then
      match entry.change with
      | .ack fromValue toValue => some (fromValue, toValue)
      | _ => none
    else none

/-- One open alarm of a condition is raised by VES events, what was open before a clear event is
cleared, and each alarm's history leads to what it is. -/
structure State.Follows (s : State) : Prop where
  single : ∀ (i j : Nat) (a b : Alarm), s.alarms[i]? = some a → s.alarms[j]? = some b → a.ves = true →
    b.ves = true → ∀ element condition, a.openFor element condition = true →
      b.openFor element condition = true → i = j
  cleared : ∀ element condition count, (element, condition, count) ∈ s.clears →
    ∀ (k : Nat) (a : Alarm), k < count → s.alarms[k]? = some a → a.openFor element condition = false
  history : ∀ (k : Nat) (a : Alarm), s.alarms[k]? = some a →
    follow none (severities s.history k) = some (some a.severity) ∧
      follow .unacknowledged (ackStates s.history k) = some a.ackState

structure State.Sound (s : State) : Prop extends s.Follows where
  found : ∀ element condition severity j loaded,
    .found (.ves element condition severity) j loaded ∈ s.requests → loaded.severity ≠ .cleared
  entries : ∀ entry ∈ s.history, entry.alarm < s.alarms.length
  counts : ∀ element condition count, (element, condition, count) ∈ s.clears → count ≤ s.alarms.length

section Steps

variable {s s' : State}

theorem severities_append (history more : List Entry) (k : Nat) :
    severities (history ++ more) k = severities history k ++ severities more k := List.filterMap_append

theorem ackStates_append (history more : List Entry) (k : Nat) :
    ackStates (history ++ more) k = ackStates history k ++ ackStates more k := List.filterMap_append

theorem severities_changed (j : Nat) (loaded now : Alarm) : severities (changed j loaded now) j =
    if some loaded.severity = some now.severity then []
    else [(some loaded.severity, some now.severity)] := by
  simp only [changed, severities, Option.some.injEq]
  split_ifs <;> simp

theorem ackStates_changed (j : Nat) (loaded now : Alarm) : ackStates (changed j loaded now) j =
    if loaded.ackState = now.ackState then [] else [(loaded.ackState, now.ackState)] := by
  simp only [changed, ackStates]
  split_ifs <;> simp

variable {j i : Nat} {loaded now a row : Alarm} {element condition : String} {request : Request}

theorem changed_alarm {entry : Entry} (mem : entry ∈ changed j loaded now) : entry.alarm = j := by
  simp only [changed] at mem
  split_ifs at mem <;> simp at mem
  · rw [mem]
  · rw [mem]
  all_goals rcases mem with rfl | rfl <;> rfl

theorem none_of_others {history : List Entry} {k : Nat} (others : ∀ entry ∈ history, entry.alarm ≠ k) :
    severities history k = [] ∧ ackStates history k = [] :=
  ⟨List.filterMap_eq_nil_iff.mpr fun entry mem => if_neg (others entry mem),
    List.filterMap_eq_nil_iff.mpr fun entry mem => if_neg (others entry mem)⟩

theorem openFor_iff : a.openFor element condition = true ↔
    a.element = element ∧ a.condition = condition ∧ a.severity ≠ .cleared := by
  simp [Alarm.openFor, and_assoc]

structure Fresh (row loaded now : Alarm) : Prop where
  severity : now.severity = loaded.severity ∨ row.severity = loaded.severity
  ackState : now.ackState = loaded.ackState ∨ row.ackState = loaded.ackState
  open' : loaded.severity = .cleared → now.severity = .cleared

theorem Fresh.stays (fresh : Fresh row loaded now) (is : row.severity = .cleared) :
    (flushed row loaded now).severity = .cleared := by
  simp only [flushed, column]
  split_ifs with same
  · exact is
  · have old := (fresh.severity.resolve_left same).symm.trans is
    exact fresh.open' old

theorem Fresh.openFor (fresh : Fresh row loaded now)
    (isOpen : (flushed row loaded now).openFor element condition = true) :
    row.openFor element condition = true := by
  obtain ⟨element, condition, uncleared⟩ := openFor_iff.mp isOpen
  exact openFor_iff.mpr ⟨element, condition, fun is => uncleared (fresh.stays is)⟩

theorem State.Sound.raise (sound : s.Sound) {alarm : Alarm} (unacknowledged : alarm.ackState = .unacknowledged)
    (alone : alarm.ves = true → ∀ a ∈ s.alarms, a.ves = true → ∀ element condition,
      a.openFor element condition = true → alarm.openFor element condition = false) :
    (s.raiseAlarm alarm).Sound := by
  have newer : ∀ entry ∈ s.history, entry.alarm ≠ s.alarms.length := fun entry mem =>
    Nat.ne_of_lt (sound.entries entry mem)
  refine ⟨⟨?_, ?_, ?_⟩, sound.found, ?_, ?_⟩
  · intro i j a b here there ves ves' element condition isOpen isOpen'
    rcases Table.append_cases here with ⟨rfl, rfl⟩ | old <;>
      rcases Table.append_cases there with ⟨rfl, rfl⟩ | old'
    · rfl
    · exact absurd isOpen (by simp [alone ves b (List.mem_of_getElem? old') ves' _ _ isOpen'])
    · exact absurd isOpen' (by simp [alone ves' a (List.mem_of_getElem? old) ves _ _ isOpen])
    · exact sound.single i j a b old old' ves ves' element condition isOpen isOpen'
  · intro element condition count mem k a small here
    rcases Table.append_cases here with ⟨rfl, rfl⟩ | here
    · exact absurd small (Nat.not_lt.mpr (sound.counts _ _ _ mem))
    · exact sound.cleared element condition count mem k a small here
  · intro k a here
    simp only [State.raiseAlarm, severities_append, ackStates_append]
    rcases Table.append_cases here with ⟨rfl, rfl⟩ | here
    · obtain ⟨nothing, nothing'⟩ := none_of_others newer
      rw [nothing, nothing', unacknowledged]
      simp [severities, ackStates, follow]
    · have other : k ≠ s.alarms.length := Nat.ne_of_lt (List.getElem?_eq_some_iff.mp here).1
      obtain ⟨nothing, nothing'⟩ := @none_of_others [⟨s.alarms.length, .raised alarm.severity, none⟩] k
        (by simpa using Ne.symm other)
      rw [nothing, nothing', List.append_nil, List.append_nil]
      exact sound.history k a here
  · intro entry mem
    simp only [State.raiseAlarm, List.length_append, List.length_singleton]
    rcases List.mem_append.mp mem with earlier | last
    · have := sound.entries entry earlier
      omega
    · rw [List.mem_singleton.mp last]
      exact Nat.lt_succ_self _
  · intro element condition count mem
    have := sound.counts element condition count mem
    simp only [State.raiseAlarm, List.length_append, List.length_singleton]
    omega

theorem State.Sound.flush (sound : s.Sound) (here : s.alarms[j]? = some row)
    (fresh : Fresh row loaded now) : (s.flush j loaded now).Sound := by
  have is : s.flush j loaded now =
      { s with
        alarms := s.alarms.set j (flushed row loaded now)
        history := s.history ++ changed j loaded now } := by simp only [State.flush, here]
  have before : ∀ (k : Nat) (a : Alarm), (s.alarms.set j (flushed row loaded now))[k]? = some a →
      ∃ b, s.alarms[k]? = some b ∧ a.ves = b.ves ∧ ∀ element condition,
        a.openFor element condition = true → b.openFor element condition = true := by
    intro k a there
    rcases Table.set_cases there with ⟨rfl, rfl⟩ | ⟨-, old⟩
    · exact ⟨row, here, rfl, fun _ _ isOpen => fresh.openFor isOpen⟩
    · exact ⟨a, old, rfl, fun _ _ isOpen => isOpen⟩
  rw [is]
  refine ⟨⟨?_, ?_, ?_⟩, sound.found, ?_, ?_⟩
  · intro i k a b there there' ves ves' element condition isOpen isOpen'
    obtain ⟨a', old, sameVes, opened⟩ := before i a there
    obtain ⟨b', old', sameVes', opened'⟩ := before k b there'
    exact sound.single i k a' b' old old' (sameVes ▸ ves) (sameVes' ▸ ves') element condition
      (opened _ _ isOpen) (opened' _ _ isOpen')
  · intro element condition count mem k a small there
    obtain ⟨a', old, -, opened⟩ := before k a there
    refine Bool.eq_false_iff.mpr fun isOpen => ?_
    exact absurd (opened _ _ isOpen)
      (by simp [sound.cleared element condition count mem k a' small old])
  · intro k a there
    simp only [severities_append, ackStates_append]
    rcases Table.set_cases there with ⟨rfl, rfl⟩ | ⟨other, old⟩
    · rw [severities_changed, ackStates_changed]
      obtain ⟨severity, ackState⟩ := sound.history k row here
      have same : column (some row.severity) (some loaded.severity) (some now.severity) =
          some (flushed row loaded now).severity := by
        simp only [column, flushed, Option.some.injEq]
        split_ifs <;> rfl
      exact ⟨same ▸ follow_change severity
        (fresh.severity.imp (congrArg some) (congrArg some)), follow_change ackState fresh.ackState⟩
    · obtain ⟨nothing, nothing'⟩ := @none_of_others (changed j loaded now) k
        fun entry mem => changed_alarm mem ▸ Ne.symm other
      rw [nothing, nothing', List.append_nil, List.append_nil]
      exact sound.history k a old
  · intro entry mem
    rw [List.length_set]
    rcases List.mem_append.mp mem with earlier | last
    · exact sound.entries entry earlier
    · rw [changed_alarm last]
      exact (List.getElem?_eq_some_iff.mp here).1
  · intro element condition count mem
    rw [List.length_set]
    exact sound.counts element condition count mem

theorem State.Sound.stage (sound : s.Sound) {next : Stage}
    (found : ∀ element condition severity j loaded,
      next = .found (.ves element condition severity) j loaded → loaded.severity ≠ .cleared) :
    (s.stage i next).Sound := by
  refine ⟨⟨sound.single, sound.cleared, sound.history⟩, ?_, sound.entries, sound.counts⟩
  intro element condition severity j loaded mem
  rcases Table.mem_set_cases mem with is | ⟨k, -, old⟩
  · exact found element condition severity j loaded is.symm
  · exact sound.found element condition severity j loaded (List.mem_of_getElem? old)

theorem State.Sound.end' (sound : s.Sound) (i : Nat) : (s.stage i .ended).Sound :=
  sound.stage (by simp)

theorem fresh_apply (sound : s.Sound) (found : s.requests[i]? = some (.found request j loaded))
    (current : State.stale row loaded (request.apply loaded) = false) :
    Fresh row loaded (request.apply loaded) := by
  simp only [State.stale, Bool.or_eq_false_iff, Bool.and_eq_false_iff, decide_eq_false_iff_not, not_not,
    ne_eq] at current
  refine ⟨current.1, current.2, fun cleared => ?_⟩
  cases request with
  | ves element condition severity =>
    exact absurd cleared (sound.found element condition severity j loaded (List.mem_of_getElem? found))
  | ingest element condition severity => exact cleared
  | ack alarm newState ackUserId => exact cleared
  | clear alarm clearUserId => rfl

theorem State.Sound.clears (sound : s.Sound)
    (none : ∀ a ∈ s.alarms, a.openFor element condition = false) :
    State.Sound { s with clears := s.clears ++ [(element, condition, s.alarms.length)] } := by
  refine ⟨⟨sound.single, ?_, sound.history⟩, sound.found, sound.entries, ?_⟩
  · intro element' condition' count mem k a small here
    rcases List.mem_append.mp mem with earlier | last
    · exact sound.cleared element' condition' count earlier k a small here
    · cases List.mem_singleton.mp last
      exact none a (List.mem_of_getElem? here)
  · intro element' condition' count mem
    rcases List.mem_append.mp mem with earlier | last
    · exact sound.counts element' condition' count earlier
    · cases List.mem_singleton.mp last
      exact Nat.le_refl _

theorem State.Sound.looked (sound : s.Sound) {alarm : Option Nat}
    (step : (s.looked request alarm).map (s.stage i) = some s') : s'.Sound := by
  obtain ⟨next, looks, rfl⟩ := Option.map_eq_some_iff.mp step
  refine sound.stage fun element condition severity j loaded is => ?_
  subst is
  cases request with
  | ves element' condition' severity' =>
    cases alarm with
    | none =>
      simp only [State.looked] at looks
      split_ifs at looks
      cases severity' <;> cases looks
    | some k =>
      cases here : s.alarms[k]? with
      | none => simp [State.looked, here] at looks
      | some row =>
        simp only [State.looked, here] at looks
        split_ifs at looks with isOpen
        · cases looks
        · cases looks
          exact (openFor_iff.mp isOpen).2.2
  | ingest element' condition' severity' => cases looks
  | ack k newState ackUserId =>
    simp only [State.looked] at looks
    split at looks <;> cases looks
  | clear k clearUserId =>
    simp only [State.looked] at looks
    split at looks <;> cases looks

theorem othersOpen_none (none : s.othersOpen j element condition = false) {k : Nat} (other : k ≠ j)
    (here : s.alarms[k]? = some a) : a.openFor element condition = false := by
  have mem : (a, k) ∈ s.alarms.zipIdx := List.mem_zipIdx_iff_getElem?.mpr here
  simpa [other] using List.any_eq_false.mp none _ mem

theorem State.Sound.change (sound : s.Sound)
    (found : s.requests[i]? = some (.found request j loaded))
    (careful : s.lapses (.commit i) = false) (step : s.act (.commit i) = some s') : s'.Sound := by
  simp only [State.lapses, found, Bool.or_eq_false_iff] at careful
  simp only [State.act, found, Option.some.injEq] at step
  subst step
  have flushed : (s.flush j loaded (request.apply loaded)).Sound := by
    cases here : s.alarms[j]? with
    | none => simpa only [State.flush, here] using sound
    | some row => exact sound.flush here (fresh_apply sound found (by simpa [here] using careful.1))
  refine State.Sound.end' ?_ i
  cases clears : request.clearEvent with
  | none => simpa using flushed
  | some key =>
    obtain ⟨element, condition⟩ := key
    refine flushed.clears fun a mem => ?_
    have others : s.othersOpen j element condition = false := by simpa [clears] using careful.2
    have isClear : request = .ves element condition none := by
      unfold Request.clearEvent at clears
      split at clears <;> cases clears
      rfl
    obtain ⟨k, there⟩ := List.mem_iff_getElem?.mp mem
    cases here : s.alarms[j]? with
    | none =>
      simp only [State.flush, here] at there
      refine othersOpen_none others (fun same => ?_) there
      rw [same, here] at there
      cases there
    | some row =>
      simp only [State.flush, here] at there
      rcases Table.set_cases there with ⟨-, rfl⟩ | ⟨other, old⟩
      · have fresh := fresh_apply sound found (by simpa [here] using careful.1)
        have cleared : loaded.severity ≠ .cleared :=
          sound.found element condition none j loaded (isClear ▸ List.mem_of_getElem? found)
        simp [Alarm.openFor, Alarms.flushed, column, isClear, Request.apply, Ne.symm cleared]
      · exact othersOpen_none others other old

theorem State.Sound.step (sound : s.Sound) {label : Act} (step : State.Step s label s')
    (careful : s.lapses label = false) : s'.Sound := by
  cases label with
  | arrive request =>
    cases step
    refine ⟨⟨sound.single, sound.cleared, sound.history⟩, ?_, sound.entries, sound.counts⟩
    intro element condition severity j loaded mem
    rcases List.mem_append.mp mem with earlier | last
    · exact sound.found element condition severity j loaded earlier
    · cases List.mem_singleton.mp last
  | look i alarm =>
    simp only [State.Step, State.act] at step
    split at step
    · exact sound.looked step
    · cases step
  | commit i =>
    have took := step
    simp only [State.Step, State.act] at took
    split at took
    · cases took
      exact (sound.raise rfl fun ves => absurd ves Bool.false_ne_true).end' i
    · next element condition severity found =>
      cases took
      simp only [State.lapses, found, List.any_eq_false, Bool.and_eq_true, not_and,
        Bool.not_eq_true] at careful
      refine (sound.raise rfl fun _ a mem ves element' condition' isOpen => ?_).end' i
      refine Bool.eq_false_iff.mpr fun isOpen' => ?_
      obtain ⟨rfl, rfl, -⟩ := openFor_iff.mp isOpen'
      exact absurd isOpen (by simpa using careful a mem ves)
    · next request j loaded found => exact sound.change found careful step
    · cases took

def State.Later (s s' : State) : Prop :=
  ∀ (k : Nat) (a : Alarm), s.alarms[k]? = some a → a.severity = .cleared →
    ∃ b, s'.alarms[k]? = some b ∧ b.severity = .cleared

theorem State.Sound.later (sound : s.Sound) {label : Act} (step : State.Step s label s')
    (careful : s.lapses label = false) : s.Later s' := by
  have raised : ∀ alarm, s.Later (s.raiseAlarm alarm) := fun alarm k a here cleared =>
    ⟨a, (List.getElem?_append_left (List.getElem?_eq_some_iff.mp here).1).trans here, cleared⟩
  cases label with
  | arrive request =>
    cases step
    exact fun k a here cleared => ⟨a, here, cleared⟩
  | look i alarm =>
    simp only [State.Step, State.act] at step
    split at step
    · obtain ⟨next, -, rfl⟩ := Option.map_eq_some_iff.mp step
      exact fun k a here cleared => ⟨a, here, cleared⟩
    · cases step
  | commit i =>
    simp only [State.Step, State.act] at step
    split at step
    · cases step
      exact raised _
    · cases step
      exact raised _
    · next request j loaded found =>
      cases step
      intro k a here cleared
      simp only [State.lapses, found, Bool.or_eq_false_iff] at careful
      cases there : s.alarms[j]? with
      | none => exact ⟨a, by simpa only [State.stage, State.flush, there] using here, cleared⟩
      | some row =>
        have fresh := fresh_apply sound found (by simpa [there] using careful.1)
        simp only [State.stage, State.flush, there]
        by_cases mine : j = k
        · subst mine
          have within : j < s.alarms.length := (List.getElem?_eq_some_iff.mp here).1
          rw [there] at here
          cases here
          exact ⟨_, List.getElem?_set_self within, fresh.stays cleared⟩
        · exact ⟨a, (List.getElem?_set_ne mine).trans here, cleared⟩
    · cases step

def next : State → Act → State := Runs.nextOf State.act

def course : List Act :=
  [.arrive (.ves "ME1" "LINK_DOWN" (some .major)), .look 0 none, .commit 0,
    .arrive (.ves "ME1" "LINK_DOWN" (some .minor)), .look 1 (some 0), .commit 1,
    .arrive (.ack 0 .acknowledged (some "ann")), .look 2 none, .commit 2,
    .arrive (.ves "ME1" "LINK_DOWN" none), .look 3 (some 0), .commit 3]

/-- Two events raise one condition, a later update writes over a clear, and two requests acknowledge
what both found unacknowledged. -/
def crossing : List Act :=
  [.arrive (.ves "ME1" "LINK_DOWN" (some .major)), .arrive (.ves "ME1" "LINK_DOWN" (some .major)),
    .look 0 none, .look 1 none, .commit 0, .commit 1,
    .arrive (.ack 0 .acknowledged (some "ann")), .arrive (.ack 0 .acknowledged (some "bob")),
    .look 2 none, .look 3 none, .commit 2, .commit 3,
    .arrive (.ves "ME1" "LINK_DOWN" (some .minor)), .arrive (.clear 1 (some "ann")),
    .look 4 (some 1), .look 5 none, .commit 5, .commit 4]

end Steps

end Smo.RanNfOam.Alarms
