import Mathlib.Order.Lattice
import Mathlib.Logic.Function.Basic
import Smo.Lib.Runs
import Mathlib.Algebra.Order.Group.Int

/-! The threshold test of MDAF, as the subscriptions of `mdaf/app/main.py` and the requests of
`mdaf/app/mda.py` make it: edge-triggered, with a hysteresis band, on a remembered side for each output
element. -/
namespace Smo.Mdaf

inductive ThresholdDirection
  | up
  | down
  | upAndDown
  deriving DecidableEq

inductive Side
  | above
  | below
  deriving DecidableEq

/-- The numbers of a report, with the sums and differences as they are rounded: the edges of a band lie
on the two sides of its threshold. -/
structure Arithmetic (V : Type) [LinearOrder V] where
  sub : V → V → V
  add : V → V → V
  around : ∀ t h, (sub t h ≤ t ∧ t ≤ add t h) ∨ (add t h ≤ t ∧ t ≤ sub t h)

structure ThresholdInfo (V : Type) where
  monitoredMDAOutputIE : String
  thresholdDirection : ThresholdDirection
  thresholdValue : V
  hysteresis : V

abbrev Output (V : Type) := String → Option V

/-- `threshold_state`: the side stored for each output element. -/
abbrev Sides := String → Option Side

variable {V : Type} [LinearOrder V] (numbers : Arithmetic V)

namespace ThresholdInfo

variable (entry : ThresholdInfo V)

def low : V := numbers.sub entry.thresholdValue entry.hysteresis

def high : V := numbers.add entry.thresholdValue entry.hysteresis

def watches (entry : ThresholdInfo V) : Side → Bool
  | .above => entry.thresholdDirection = .up || entry.thresholdDirection = .upAndDown
  | .below => entry.thresholdDirection = .down || entry.thresholdDirection = .upAndDown

end ThresholdInfo

/-- `_threshold_crossed` of a request (`mda.py`), on one threshold. -/
def thresholdCrossed (state : Sides) (entry : ThresholdInfo V) (value : V) : Bool × Sides :=
  let ie := entry.monitoredMDAOutputIE
  let previous := state ie
  if entry.watches .above ∧ entry.thresholdValue ≤ value ∧ previous ≠ some .above then
    (true, Function.update state ie (some .above))
  else if entry.watches .below ∧ value ≤ entry.thresholdValue ∧ previous ≠ some .below then
    (true, Function.update state ie (some .below))
  else if value < entry.low numbers then (false, Function.update state ie (some .below))
  else if entry.high numbers < value then (false, Function.update state ie (some .above))
  else (false, state)

/-- `_threshold_crossed` of a subscription (`main.py`): one pass of its loop. -/
def crossOne (output : Output V) (so : Bool × Sides) (entry : ThresholdInfo V) : Bool × Sides :=
  let (crossed, state) := so
  let ie := entry.monitoredMDAOutputIE
  match output ie with
  | none => (crossed, state)
  | some value =>
    if entry.watches .above ∧ entry.thresholdValue ≤ value ∧ state ie ≠ some .above then
      (true, Function.update state ie (some .above))
    else if entry.watches .below ∧ value ≤ entry.thresholdValue ∧ state ie ≠ some .below then
      (true, Function.update state ie (some .below))
    else if value < entry.low numbers then (crossed, Function.update state ie (some .below))
    else if entry.high numbers < value then (crossed, Function.update state ie (some .above))
    else (crossed, state)

/-- `_threshold_crossed` of a subscription: whether any of its thresholds fired. -/
def subscriptionCrossed (state : Sides) (thresholdInfo : List (ThresholdInfo V))
    (output : Output V) : Bool × Sides :=
  thresholdInfo.foldl (crossOne numbers output) (false, state)

def crossing (entry : ThresholdInfo V) (previous : Option Side) (value : V) :
    Option Side × Option Side :=
  if entry.watches .above ∧ entry.thresholdValue ≤ value ∧ previous ≠ some .above then
    (some .above, some .above)
  else if entry.watches .below ∧ value ≤ entry.thresholdValue ∧ previous ≠ some .below then
    (some .below, some .below)
  else if value < entry.low numbers then (none, some .below)
  else if entry.high numbers < value then (none, some .above)
  else (none, previous)

def firings (output : Output V) : Sides → List (ThresholdInfo V) → List (Option Side) × Sides
  | state, [] => ([], state)
  | state, entry :: rest =>
    let ie := entry.monitoredMDAOutputIE
    match output ie with
    | none =>
      let (fired, after) := firings output state rest
      (none :: fired, after)
    | some value =>
      let (fires, side) := crossing numbers entry (state ie) value
      let (fired, after) := firings output (Function.update state ie side) rest
      (fires :: fired, after)

theorem thresholdCrossed_eq (state : Sides) (entry : ThresholdInfo V) (value : V) :
    thresholdCrossed numbers state entry value =
      let (fires, side) := crossing numbers entry (state entry.monitoredMDAOutputIE) value
      (fires.isSome, Function.update state entry.monitoredMDAOutputIE side) := by
  unfold thresholdCrossed crossing
  dsimp only
  split_ifs with up down low high <;> simp

theorem crossOne_eq (output : Output V) (crossed : Bool) (state : Sides) (entry : ThresholdInfo V)
    {value : V} (is : output entry.monitoredMDAOutputIE = some value) :
    crossOne numbers output (crossed, state) entry =
      let (fires, side) := crossing numbers entry (state entry.monitoredMDAOutputIE) value
      (crossed || fires.isSome, Function.update state entry.monitoredMDAOutputIE side) := by
  unfold crossOne crossing
  simp only [is]
  split_ifs with up down low high <;> simp

theorem crossOne_missing (output : Output V) (so : Bool × Sides) (entry : ThresholdInfo V)
    (is : output entry.monitoredMDAOutputIE = none) : crossOne numbers output so entry = so := by
  simp only [crossOne, is]

def requestCrossed (output : Output V) (so : Bool × Sides) (entry : ThresholdInfo V) : Bool × Sides :=
  match output entry.monitoredMDAOutputIE with
  | none => so
  | some value =>
    let (fires, after) := thresholdCrossed numbers so.2 entry value
    (so.1 || fires, after)

theorem crossOne_request (output : Output V) (so : Bool × Sides) (entry : ThresholdInfo V) :
    crossOne numbers output so entry = requestCrossed numbers output so entry := by
  unfold requestCrossed
  cases is : output entry.monitoredMDAOutputIE with
  | none => exact crossOne_missing numbers output so entry is
  | some value =>
    rw [crossOne_eq numbers output so.1 so.2 entry is]
    simp only [thresholdCrossed_eq]

end Smo.Mdaf

/-! What the thresholds of a subscription fire over a sequence of reports. -/
namespace Smo.Mdaf

variable {V : Type} [LinearOrder V] (numbers : Arithmetic V)

structure Entry (V : Type) where
  output : Output V
  fired : List (Option Side)

/-- The stored sides, and the reports so far, the newest first; the service keeps no such list. -/
structure Watch (V : Type) where
  sides : Sides := fun _ => none
  log : List (Entry V) := []

def Watch.report (thresholds : List (ThresholdInfo V)) (s : Watch V) (output : Output V) : Watch V :=
  let (fired, sides) := firings numbers output s.sides thresholds
  { sides, log := ⟨output, fired⟩ :: s.log }

def Watch.Step (thresholds : List (ThresholdInfo V)) (s : Watch V) (output : Output V)
    (s' : Watch V) : Prop :=
  s.report numbers thresholds output = s'

def Watch.events (s : Watch V) (i : Nat) (entry : ThresholdInfo V) : List (V × Option Side) :=
  s.log.filterMap fun past =>
    (past.output entry.monitoredMDAOutputIE).map fun value => (value, past.fired[i]?.join)

namespace ThresholdInfo

variable (entry : ThresholdInfo V)

def reaches (entry : ThresholdInfo V) (value : V) : Side → Bool
  | .above => entry.thresholdValue ≤ value
  | .below => value ≤ entry.thresholdValue

/-- The value is beyond the band, on the side that a firing to this side comes from. -/
def leaves (value : V) : Side → Bool
  | .above => value < entry.low numbers
  | .below => entry.high numbers < value

def armed (side : Side) : List (V × Option Side) → Bool
  | [] => true
  | (value, fires) :: older => fires ≠ some side && (entry.leaves numbers value side || armed side older)

def own : List V → Option Side
  | [] => none
  | value :: older => (crossing numbers entry (own older) value).2

def Fires (events : List (V × Option Side)) (value : V) (side : Side) : Prop :=
  entry.watches side = true ∧ entry.reaches value side = true ∧
    ∀ newer past older, events = newer ++ past :: older → past.2 = some side →
      ∃ since ∈ newer, entry.leaves numbers since.1 side = true

theorem armed_iff (side : Side) (events : List (V × Option Side)) :
    entry.armed numbers side events = true ↔
      ∀ newer past older, events = newer ++ past :: older → past.2 = some side →
        ∃ since ∈ newer, entry.leaves numbers since.1 side = true := by
  induction events with
  | nil => simp [armed]
  | cons event older ih =>
    obtain ⟨value, fires⟩ := event
    simp only [armed, Bool.and_eq_true, Bool.or_eq_true, decide_eq_true_eq]
    constructor
    · rintro ⟨other, left | was⟩ newer past rest same fired
      · rcases List.cons_eq_append_iff.mp same with ⟨rfl, is⟩ | ⟨tail, rfl, -⟩
        · cases is
          exact absurd fired other
        · exact ⟨(value, fires), List.mem_cons_self, left⟩
      · rcases List.cons_eq_append_iff.mp same with ⟨rfl, is⟩ | ⟨tail, rfl, is⟩
        · cases is
          exact absurd fired other
        · obtain ⟨since, mem, left⟩ := ih.mp was tail past rest is fired
          exact ⟨since, List.mem_cons_of_mem _ mem, left⟩
    · intro always
      refine ⟨fun fired => ?_, ?_⟩
      · obtain ⟨_, mem, _⟩ := always [] (value, fires) older rfl fired
        cases mem
      · by_cases left : entry.leaves numbers value side = true
        · exact .inl left
        · refine .inr (ih.mpr fun newer past rest same fired => ?_)
          obtain ⟨since, mem, leaves⟩ :=
            always ((value, fires) :: newer) past rest (by rw [same, List.cons_append]) fired
          rcases List.mem_cons.mp mem with rfl | inNewer
          · exact absurd leaves left
          · exact ⟨since, inNewer, leaves⟩

theorem fires_iff (events : List (V × Option Side)) (value : V) (side : Side) :
    entry.Fires numbers events value side ↔ entry.watches side = true ∧
      entry.reaches value side = true ∧ entry.armed numbers side events = true := by
  rw [Fires, armed_iff]

end ThresholdInfo

variable (thresholds : List (ThresholdInfo V))

/-- At its evaluation a threshold finds the side it would have stored by itself; a value beyond the band
on both sides, which a negative hysteresis makes, comes to an upward threshold only; and a threshold
that watches both ways is reached from the other side only when it is armed that way. -/
def Watch.apartAt (s : Watch V) (output : Output V) (i : Nat) (entry : ThresholdInfo V) (value : V) :
    Bool :=
  let events := s.events i entry
  let previous := (firings numbers output s.sides (thresholds.take i)).2 entry.monitoredMDAOutputIE
  previous = entry.own numbers (events.map Prod.fst) &&
    (entry.thresholdDirection = .up ||
      !(entry.leaves numbers value .above && entry.leaves numbers value .below)) &&
    (entry.thresholdDirection ≠ .upAndDown ||
      ((previous ≠ some .below || !entry.reaches value .above || entry.armed numbers .above events) &&
        (previous ≠ some .above || !entry.reaches value .below || entry.armed numbers .below events)))

def Watch.apart (s : Watch V) (output : Output V) : Bool :=
  thresholds.zipIdx.all fun (entry, i) =>
    (output entry.monitoredMDAOutputIE).all fun value => s.apartAt numbers thresholds output i entry value

/-- What a threshold does on a value: it fires exactly when it is to, not again within its band, and as
it would by itself. -/
structure Crosses (entry : ThresholdInfo V) (events : List (V × Option Side)) (value : V)
    (fires : Option Side) : Prop where
  due : ∀ side, fires = some side → entry.Fires numbers events value side
  missed : (∃ side, entry.Fires numbers events value side) → fires.isSome = true
  settled : ∀ side newer past older, events = newer ++ past :: older → past.2 = some side →
    (∀ since ∈ newer, entry.low numbers ≤ since.1 ∧ since.1 ≤ entry.high numbers) →
    fires ≠ some side
  alone : fires = (crossing numbers entry (entry.own numbers (events.map Prod.fst)) value).1

/-- Each threshold crosses as it is to, and the subscriptions' test is the requests'. -/
def Watch.Crossed (t : Runs.Step (Watch V) (Output V)) : Prop :=
  (∀ (i : Nat) entry value, thresholds[i]? = some entry →
    t.label entry.monitoredMDAOutputIE = some value →
    ∃ fires, (firings numbers t.label t.before.sides thresholds).1[i]? = some fires ∧
      Crosses numbers entry (t.before.events i entry) value fires) ∧
  ∀ state output, subscriptionCrossed numbers state thresholds output =
    thresholds.foldl (requestCrossed numbers output) (false, state)

section One

variable {numbers} {entry : ThresholdInfo V} {previous : Option Side} {events : List (V × Option Side)}
  {value : V}

structure Remembers (numbers : Arithmetic V) (entry : ThresholdInfo V) (previous : Option Side)
    (events : List (V × Option Side)) : Prop where
  spent : ∀ side, entry.watches side = true → previous = some side →
    entry.armed numbers side events = false
  armed : ∀ side, entry.watches side = true → previous ≠ some side →
    (entry.thresholdDirection = .upAndDown → previous = none) →
    entry.armed numbers side events = true

structure Plain (numbers : Arithmetic V) (entry : ThresholdInfo V) (previous : Option Side)
    (events : List (V × Option Side)) (value : V) : Prop where
  band : entry.thresholdDirection = .up ∨
    (value < entry.low numbers → value ≤ entry.high numbers)
  above : entry.thresholdDirection = .upAndDown → previous = some .below →
    entry.thresholdValue ≤ value → entry.armed numbers .above events = true
  below : entry.thresholdDirection = .upAndDown → previous = some .above →
    value ≤ entry.thresholdValue → entry.armed numbers .below events = true

theorem crossing_fires (remembers : Remembers numbers entry previous events)
    (plain : Plain numbers entry previous events value) :
    (∀ side, (crossing numbers entry previous value).1 = some side →
      entry.Fires numbers events value side) ∧
    ((∃ side, entry.Fires numbers events value side) →
      (crossing numbers entry previous value).1.isSome = true) := by
  constructor
  · intro side fires
    rw [ThresholdInfo.fires_iff]
    unfold crossing at fires
    split_ifs at fires with up down low high
    · cases fires
      obtain ⟨watches, reaches, other⟩ := up
      refine ⟨watches, decide_eq_true reaches, ?_⟩
      cases previous with
      | none => exact remembers.armed .above watches (by simp) fun _ => rfl
      | some stored =>
        cases stored with
        | above => exact absurd rfl other
        | below =>
          by_cases both : entry.thresholdDirection = .upAndDown
          · exact plain.above both rfl reaches
          · exact remembers.armed .above watches (by simp) fun is => absurd is both
    · cases fires
      obtain ⟨watches, reaches, other⟩ := down
      refine ⟨watches, decide_eq_true reaches, ?_⟩
      cases previous with
      | none => exact remembers.armed .below watches (by simp) fun _ => rfl
      | some stored =>
        cases stored with
        | below => exact absurd rfl other
        | above =>
          by_cases both : entry.thresholdDirection = .upAndDown
          · exact plain.below both rfl reaches
          · exact remembers.armed .below watches (by simp) fun is => absurd is both
  · rintro ⟨side, fires⟩
    obtain ⟨watches, reaches, armed⟩ := (ThresholdInfo.fires_iff numbers entry events value side).mp fires
    have open_ : previous ≠ some side := fun is => by
      rw [remembers.spent side watches is] at armed
      cases armed
    unfold crossing
    cases side with
    | above =>
      rw [if_pos ⟨watches, of_decide_eq_true reaches, open_⟩]
      rfl
    | below =>
      split_ifs with up down
      · rfl
      · rfl
      · exact absurd ⟨watches, of_decide_eq_true reaches, open_⟩ down
      · exact absurd ⟨watches, of_decide_eq_true reaches, open_⟩ down
      · exact absurd ⟨watches, of_decide_eq_true reaches, open_⟩ down

theorem below_of_low (under : value < entry.low numbers) (within : ¬entry.high numbers < value) :
    value ≤ entry.thresholdValue := by
  rcases numbers.around entry.thresholdValue entry.hysteresis with ⟨low, _⟩ | ⟨high, _⟩
  · exact le_trans (le_of_lt under) low
  · exact le_trans (le_of_not_gt within) high

theorem above_of_high (past : entry.high numbers < value) (within : ¬value < entry.low numbers) :
    entry.thresholdValue ≤ value := by
  rcases numbers.around entry.thresholdValue entry.hysteresis with ⟨_, high⟩ | ⟨_, low⟩
  · exact le_trans high (le_of_lt past)
  · exact le_trans low (le_of_not_gt within)

omit [LinearOrder V] in
theorem both_of_watches (above : entry.watches .above = true) (below : entry.watches .below = true) :
    entry.thresholdDirection = .upAndDown := by
  cases is : entry.thresholdDirection <;> simp [ThresholdInfo.watches, is] at above below ⊢

theorem crossing_remembers (remembers : Remembers numbers entry previous events)
    (plain : Plain numbers entry previous events value) :
    Remembers numbers entry (crossing numbers entry previous value).2
      ((value, (crossing numbers entry previous value).1) :: events) := by
  obtain ⟨spent, armed⟩ := remembers
  unfold crossing
  split_ifs with up down low high
  · refine ⟨fun side _ is => ?_, fun side watches other both => ?_⟩
    · cases is
      simp [ThresholdInfo.armed]
    · cases side with
      | above => exact absurd rfl other
      | below => cases both (both_of_watches up.1 watches)
  · refine ⟨fun side _ is => ?_, fun side watches other both => ?_⟩
    · cases is
      simp [ThresholdInfo.armed]
    · cases side with
      | below => exact absurd rfl other
      | above => cases both (both_of_watches watches down.1)
  · have turned : entry.watches .below = true → ¬entry.high numbers < value := fun watches past => by
      rcases plain.band with is | within
      · simp [ThresholdInfo.watches, is] at watches
      · exact absurd past (not_lt_of_ge (within low))
    refine ⟨fun side watches is => ?_, fun side watches other _ => ?_⟩
    · cases is
      have within := turned watches
      have stored : previous = some .below := by
        by_contra other
        exact down ⟨watches, below_of_low low within, other⟩
      simp [ThresholdInfo.armed, ThresholdInfo.leaves, within, spent .below watches stored]
    · cases side with
      | below => exact absurd rfl other
      | above => simp [ThresholdInfo.armed, ThresholdInfo.leaves, low]
  · refine ⟨fun side watches is => ?_, fun side watches other _ => ?_⟩
    · cases is
      have stored : previous = some .above := by
        by_contra other
        exact up ⟨watches, above_of_high high low, other⟩
      simp [ThresholdInfo.armed, ThresholdInfo.leaves, low, spent .above watches stored]
    · cases side with
      | above => exact absurd rfl other
      | below => simp [ThresholdInfo.armed, ThresholdInfo.leaves, high]
  · have stays : ∀ side, entry.leaves numbers value side = false := fun side => by
      cases side with
      | above => exact decide_eq_false low
      | below => exact decide_eq_false high
    refine ⟨fun side watches is => ?_, fun side watches other both => ?_⟩
    · simp [ThresholdInfo.armed, stays, spent side watches is]
    · simp [ThresholdInfo.armed, armed side watches other both]

end One

section Runs

variable {numbers} {thresholds} {entry : ThresholdInfo V} {s : Watch V} {output : Output V} {i : Nat}
  {value : V}

theorem firings_at {sides : Sides} (at_ : thresholds[i]? = some entry)
    (is : output entry.monitoredMDAOutputIE = some value) :
    (firings numbers output sides thresholds).1[i]? = some (crossing numbers entry
      ((firings numbers output sides (thresholds.take i)).2 entry.monitoredMDAOutputIE) value).1 := by
  induction thresholds generalizing i sides with
  | nil => cases at_
  | cons first rest ih =>
    cases i with
    | zero =>
      cases at_
      simp [firings, is]
    | succ j =>
      simp only [List.take_succ_cons, firings]
      split <;> exact ih at_

/-- What the past of each threshold says of the side it would have stored by itself. -/
def Watch.Sound (numbers : Arithmetic V) (thresholds : List (ThresholdInfo V)) (s : Watch V) : Prop :=
  ∀ (i : Nat) entry, thresholds[i]? = some entry →
    Remembers numbers entry (entry.own numbers ((s.events i entry).map Prod.fst)) (s.events i entry)

theorem apart_at (apart : s.apart numbers thresholds output = true) (at_ : thresholds[i]? = some entry)
    (is : output entry.monitoredMDAOutputIE = some value) :
    s.apartAt numbers thresholds output i entry value = true := by
  have mem : (entry, i) ∈ thresholds.zipIdx := List.mem_zipIdx_iff_getElem?.mpr at_
  have here := List.all_eq_true.mp apart _ mem
  simpa [is] using here

theorem plain_of_apart (apart : s.apartAt numbers thresholds output i entry value = true) :
    (firings numbers output s.sides (thresholds.take i)).2 entry.monitoredMDAOutputIE =
        entry.own numbers ((s.events i entry).map Prod.fst) ∧
      Plain numbers entry (entry.own numbers ((s.events i entry).map Prod.fst)) (s.events i entry)
        value := by
  simp only [Watch.apartAt, Bool.and_eq_true, decide_eq_true_eq] at apart
  obtain ⟨⟨same, band⟩, turn⟩ := apart
  rw [same] at turn
  refine ⟨same, ?_, fun both stored reaches => ?_, fun both stored reaches => ?_⟩
  · simp only [ThresholdInfo.leaves, Bool.or_eq_true, decide_eq_true_eq, Bool.not_eq_true',
      Bool.and_eq_false_iff, decide_eq_false_iff_not] at band
    exact band.imp id fun either under => not_lt.mp (either.resolve_left (not_not_intro under))
  · simp only [both, stored, ThresholdInfo.reaches, reaches, ne_eq, not_true_eq_false, decide_false,
      decide_true, Bool.not_true, Bool.false_or, Bool.and_eq_true] at turn
    exact turn.1
  · simp only [both, stored, ThresholdInfo.reaches, reaches, ne_eq, not_true_eq_false, decide_false,
      decide_true, Bool.not_true, Bool.false_or, Bool.and_eq_true] at turn
    exact turn.2

theorem events_report (at_ : thresholds[i]? = some entry) :
    (s.report numbers thresholds output).events i entry =
      match output entry.monitoredMDAOutputIE with
      | none => s.events i entry
      | some value => (value, (crossing numbers entry
          ((firings numbers output s.sides (thresholds.take i)).2 entry.monitoredMDAOutputIE)
          value).1) :: s.events i entry := by
  simp only [Watch.events, Watch.report]
  cases is : output entry.monitoredMDAOutputIE with
  | none => simp [is]
  | some value => simp [is, firings_at at_ is]

theorem Watch.Sound.report (sound : s.Sound numbers thresholds)
    (apart : s.apart numbers thresholds output = true) :
    (s.report numbers thresholds output).Sound numbers thresholds := by
  intro i entry at_
  rw [events_report at_]
  cases is : output entry.monitoredMDAOutputIE with
  | none => exact sound i entry at_
  | some value =>
    obtain ⟨same, plain⟩ := plain_of_apart (apart_at apart at_ is)
    simp only [same, List.map_cons, ThresholdInfo.own]
    exact crossing_remembers (sound i entry at_) plain

theorem crosses (sound : s.Sound numbers thresholds) (apart : s.apart numbers thresholds output = true)
    (at_ : thresholds[i]? = some entry) (is : output entry.monitoredMDAOutputIE = some value) :
    ∃ fires, (firings numbers output s.sides thresholds).1[i]? = some fires ∧
      Crosses numbers entry (s.events i entry) value fires := by
  obtain ⟨same, plain⟩ := plain_of_apart (apart_at apart at_ is)
  obtain ⟨only, always⟩ := crossing_fires (sound i entry at_) plain
  refine ⟨_, firings_at at_ is, ?_⟩
  rw [same]
  refine ⟨only, always, fun side newer past older split fired within again => ?_, rfl⟩
  obtain ⟨since, mem, left⟩ := (only side again).2.2 newer past older split fired
  obtain ⟨low, high⟩ := within since mem
  cases side with
  | above => exact absurd (of_decide_eq_true left) (not_lt_of_ge low)
  | below => exact absurd (of_decide_eq_true left) (not_lt_of_ge high)

theorem subscription_request (state : Sides) (thresholds : List (ThresholdInfo V)) (output : Output V) :
    subscriptionCrossed numbers state thresholds output =
      thresholds.foldl (requestCrossed numbers output) (false, state) := by
  have same : crossOne numbers output = requestCrossed numbers output := by
    funext so entry
    exact crossOne_request numbers output so entry
  rw [subscriptionCrossed, same]

/-- Thresholds cross with hysteresis when each finds the side that it would have stored by itself, and
one that watches both ways is not reached again before the value has left its band. -/
theorem crossings_hold {trace : List (Runs.Step (Watch V) (Output V))}
    (run : Runs.Run (Watch.Step numbers thresholds) {} trace s)
    (apart : ∀ t ∈ trace, t.before.apart numbers thresholds t.label = true) :
    ∀ t ∈ trace, Watch.Crossed numbers thresholds t := by
  refine run.transitions_of_guarded (Watch.Sound numbers thresholds)
    (fun s output => s.apart numbers thresholds output = true) ?_ ?_ _ ?_ apart
  · intro i entry _
    exact ⟨(fun side _ is => by cases is), fun side _ _ _ => rfl⟩
  · rintro s output _ sound apart rfl
    exact sound.report apart
  · intro s output _ sound apart _
    exact ⟨fun i entry value at_ is => crosses sound apart at_ is,
      fun state output => subscription_request state thresholds output⟩

end Runs

section Sample

def integers : Arithmetic Int where
  sub := (· - ·)
  add := (· + ·)
  around t h := by omega

def apartInfo : List (ThresholdInfo Int) := [⟨"load", .up, 10, 2⟩, ⟨"spare", .upAndDown, 5, 1⟩]

def reading (load spare : Int) : Output Int := fun ie =>
  if ie = "load" then some load else if ie = "spare" then some spare else none

def watched (thresholds : List (ThresholdInfo Int)) (outputs : List (Output Int)) : Watch Int :=
  outputs.foldl (Watch.report integers thresholds) {}

theorem apart_crossed :
    Watch.Crossed integers apartInfo ⟨{}, reading 12 3, watched apartInfo [reading 12 3]⟩ ∧
      Watch.Crossed integers apartInfo ⟨watched apartInfo [reading 12 3], reading 9 7,
        watched apartInfo [reading 12 3, reading 9 7]⟩ := by
  have run : Runs.Run (Watch.Step integers apartInfo) {}
      [⟨{}, reading 12 3, watched apartInfo [reading 12 3]⟩,
        ⟨watched apartInfo [reading 12 3], reading 9 7,
          watched apartInfo [reading 12 3, reading 9 7]⟩]
      (watched apartInfo [reading 12 3, reading 9 7]) := .snoc (.snoc .refl rfl) rfl
  have crossed := crossings_hold run (by decide +kernel)
  exact ⟨crossed _ List.mem_cons_self, crossed _ (List.mem_cons_of_mem _ (List.mem_singleton_self _))⟩

/-- The first threshold of the load leaves its side to the second, which then does not fire. -/
theorem second_silent : ¬∀ (thresholds : List (ThresholdInfo Int))
    (trace : List (Runs.Step (Watch Int) (Output Int))) (s : Watch Int),
    Runs.Run (Watch.Step integers thresholds) {} trace s →
      ∀ t ∈ trace, Watch.Crossed integers thresholds t := by
  intro always
  have crossed := always [⟨"load", .up, 10, 2⟩, ⟨"load", .up, 20, 2⟩]
    [⟨{}, reading 25 0, watched [⟨"load", .up, 10, 2⟩, ⟨"load", .up, 20, 2⟩] [reading 25 0]⟩] _
    (.snoc .refl rfl) _ (List.mem_singleton_self _)
  obtain ⟨fires, at_, crosses⟩ := crossed.1 1 ⟨"load", .up, 20, 2⟩ 25 rfl rfl
  have silent : (firings integers (reading 25 0) (fun _ => none)
      [⟨"load", .up, 10, 2⟩, ⟨"load", .up, 20, 2⟩]).1[1]? = some none := by decide +kernel
  rw [show ({} : Watch Int).sides = fun _ => none from rfl, silent] at at_
  cases at_
  have fires := crosses.missed ⟨.above, rfl, rfl, by simp [Watch.events]⟩
  cases fires

end Sample

end Smo.Mdaf
