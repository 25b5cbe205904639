import Smo.Sme.Invokers
import Smo.Lib.Json.Python
import Mathlib.Logic.Function.Basic
import Mathlib.Tactic.Linarith

/-! Client assertions at SME's token endpoint (`sme/app/main.py`): requests that exchange one,
statement by statement in any order. Times are in microseconds. -/
namespace Smo.Sme.Assertions

open Json (Value Number roundHalfEven)
open Runs

/-- The claims of an assertion that the endpoint reads; `jti` is `str(claims["jti"])`. -/
structure Claims where
  iss : Str
  sub : Str
  jti : Str
  exp : Value

def second : Int := 1000000

/-- Python's `int` of a number. -/
def int (value : ℚ) : Int := if 0 ≤ value then ⌊value⌋ else ⌈value⌉

/-- `datetime.fromtimestamp`. -/
def fromtimestamp (value : ℚ) : Int := roundHalfEven (value * second)

def maxAssertionLifetimeSeconds : Int := 300

/-- The JWT library: the claims that a signed text carries, and whether it verifies with a key at a
time. What verifies has not expired, by `exp` cut to whole seconds. -/
structure Jwt where
  claims : Str → Claims
  verifies : Str → Str → Nat → Bool
  unexpired : ∀ key assertion time exp, verifies key assertion time = true →
    (claims assertion).exp.number = some (.finite exp) → time < int exp * second

structure UsedClientAssertion where
  jti : Str
  apiInvokerId : Str
  expiresAt : Int

inductive Stage
  | verified
  | timed
  | purged
  | unused
  | added
  deriving DecidableEq

/-- A request that exchanges an assertion: the clock it read last, and the rows it purged. -/
structure Exchange where
  clientId : Str
  assertion : Str
  clock : Nat
  expiresAt : Int := 0
  gone : List Str := []
  stage : Stage := .verified

/-- The committed rows, the requests in flight with the rows that they delete and add, the latest
clock reading that was committed and the assertions that bought a token. -/
structure Exchanges where
  used : List UsedClientAssertion := []
  running : Nat → Option Exchange := fun _ => none
  deleting : Str → Option Nat := fun _ => none
  adding : Str → Option Nat := fun _ => none
  committed : Nat := 0
  issued : List Str := []

inductive Statement
  | verify (r : Nat) (clientId assertion : Str) (read : Nat)
  | readClock (r now : Nat)
  | purge (r : Nat) (gone : List Str)
  | lookup (r : Nat)
  | add (r : Nat)
  | commit (r : Nat)
  | abort (r : Nat)

namespace Exchanges

def at_ (s : Exchanges) (r : Nat) (exchange : Exchange) : Exchanges :=
  { s with running := Function.update s.running r (some exchange) }

def ended (s : Exchanges) (r : Nat) : Exchanges :=
  { s with
    running := Function.update s.running r none
    deleting := fun jti => if s.deleting jti = some r then none else s.deleting jti
    adding := fun jti => if s.adding jti = some r then none else s.adding jti }

/-- What a request that purged rows finds under a `jti`. -/
def found (s : Exchanges) (exchange : Exchange) (jti : Str) : Option UsedClientAssertion :=
  if jti ∈ exchange.gone then none else Table.get (·.jti) s.used jti

/-- A row that the purge deletes: it has expired, and no other request deletes it. -/
def purgeable (s : Exchanges) (now : Nat) (jti : Str) : Bool :=
  ((Table.get (·.jti) s.used jti).any fun row => row.expiresAt ≤ (now : Int)) && s.deleting jti = none

section Steps

variable (jwt : Jwt) (publicKey : Str → Option Str)

/-- One statement of `_verify_client_assertion` and of the commit of `issue_access_token`. The
purge misses expired rows that are committed while it waits for a lock. The insert of a row waits
for another insert of its key. -/
def step (s : Exchanges) : Statement → Option Exchanges
  | .verify r clientId assertion read =>
    match publicKey clientId with
    | none => none
    | some key =>
      let claims := jwt.claims assertion
      if s.running r = none ∧ s.committed ≤ read ∧ jwt.verifies key assertion read ∧
          claims.iss = clientId ∧ claims.sub = clientId then
        some (s.at_ r { clientId, assertion, clock := read })
      else none
  | .readClock r now =>
    match s.running r with
    | none => none
    | some exchange =>
      match (jwt.claims exchange.assertion).exp.number with
      | some (.finite exp) =>
        if exchange.stage = .verified ∧ exchange.clock ≤ now ∧ s.committed ≤ now ∧
            fromtimestamp exp - now ≤ maxAssertionLifetimeSeconds * second then
          some (s.at_ r { exchange with clock := now, expiresAt := fromtimestamp exp, stage := .timed })
        else none
      | _ => none
  | .purge r gone =>
    match s.running r with
    | none => none
    | some exchange =>
      if exchange.stage = .timed ∧ gone.all (s.purgeable exchange.clock) then
        some { s.at_ r { exchange with gone, stage := .purged } with
          deleting := fun jti => if jti ∈ gone then some r else s.deleting jti }
      else none
  | .lookup r =>
    match s.running r with
    | none => none
    | some exchange =>
      if exchange.stage = .purged ∧ (s.found exchange (jwt.claims exchange.assertion).jti).isNone then
        some (s.at_ r { exchange with stage := .unused })
      else none
  | .add r =>
    match s.running r with
    | none => none
    | some exchange =>
      let jti := (jwt.claims exchange.assertion).jti
      if exchange.stage = .unused ∧ (s.found exchange jti).isNone ∧ s.adding jti = none then
        some { s.at_ r { exchange with stage := .added } with
          adding := Function.update s.adding jti (some r) }
      else none
  | .commit r =>
    match s.running r with
    | none => none
    | some exchange =>
      if exchange.stage = .added then
        some { s.ended r with
          used := s.used.filter (·.jti ∉ exchange.gone) ++
            [⟨(jwt.claims exchange.assertion).jti, exchange.clientId, exchange.expiresAt⟩]
          committed := max s.committed exchange.clock
          issued := s.issued ++ [exchange.assertion] }
      else none
  | .abort r => some (s.ended r)

def Step (s : Exchanges) (label : Statement) (s' : Exchanges) : Prop :=
  s.step jwt publicKey label = some s'

/-- When a request commits, no request in progress, itself included, has verified an assertion that
bought a token already and whose row it purged. -/
def Clear (s : Exchanges) : Statement → Prop
  | .commit r => ∀ exchange, s.running r = some exchange → ∀ r' other, s.running r' = some other →
      other.assertion ∈ s.issued → (jwt.claims other.assertion).jti ∉ exchange.gone
  | _ => True

structure Holds (s : Exchanges) (r : Nat) (exchange : Exchange) : Prop where
  gone : ∀ jti ∈ exchange.gone, s.deleting jti = some r ∧
    ∃ row, Table.get (·.jti) s.used jti = some row ∧ row.expiresAt ≤ exchange.clock
  positive : ∀ exp, (jwt.claims exchange.assertion).exp.number = some (.finite exp) → 0 < int exp
  remembered : exchange.assertion ∈ s.issued →
    (Table.get (·.jti) s.used (jwt.claims exchange.assertion).jti).isSome
  expires : exchange.stage ≠ .verified → ∃ exp, (jwt.claims exchange.assertion).exp.number =
    some (.finite exp) ∧ exchange.expiresAt = fromtimestamp exp
  added : exchange.stage = .added → s.adding (jwt.claims exchange.assertion).jti = some r ∧
    s.found exchange (jwt.claims exchange.assertion).jti = none

/-- An assertion that bought a token is remembered, or expired for whoever reads the clock next. -/
def Spent (s : Exchanges) (assertion : Str) : Prop :=
  (∃ row exp, Table.get (·.jti) s.used (jwt.claims assertion).jti = some row ∧
    (jwt.claims assertion).exp.number = some (.finite exp) ∧ int exp * second ≤ row.expiresAt) ∨
  ∃ exp, (jwt.claims assertion).exp.number = some (.finite exp) ∧ int exp * second ≤ s.committed

structure Inv (s : Exchanges) : Prop where
  requests : ∀ r exchange, s.running r = some exchange → s.Holds jwt r exchange
  spent : ∀ assertion ∈ s.issued, s.Spent jwt assertion
  once : s.issued.Nodup

end Steps

section Times

theorem floor_le_roundHalfEven (value : ℚ) : ⌊value⌋ ≤ roundHalfEven value := by
  simp only [roundHalfEven]
  split_ifs <;> omega

theorem int_le_fromtimestamp {exp : ℚ} (positive : 0 < int exp) :
    int exp * second ≤ fromtimestamp exp := by
  have after : 0 ≤ exp := by
    by_contra before
    rw [int, if_neg before] at positive
    have := Int.ceil_le.mpr (show exp ≤ ((0 : Int) : ℚ) by push_cast; linarith)
    omega
  rw [int, if_pos after]
  refine le_trans (Int.le_floor.mpr ?_) (floor_le_roundHalfEven _)
  have seconds : (0 : ℚ) ≤ (second : ℚ) := by norm_num [second]
  push_cast
  exact mul_le_mul_of_nonneg_right (Int.floor_le exp) seconds

end Times

section Moves

variable {jwt : Jwt} {s : Exchanges} {r r' : Nat} {exchange other : Exchange} {jti : Str}

theorem at_running (is : (s.at_ r exchange).running r' = some other) :
    r' = r ∧ other = exchange ∨ r' ≠ r ∧ s.running r' = some other := by
  simp only [at_, Function.update_apply] at is
  split_ifs at is with mine
  · exact .inl ⟨mine, (Option.some.inj is).symm⟩
  · exact .inr ⟨mine, is⟩

theorem Inv.at_ (inv : s.Inv jwt) (holds : s.Holds jwt r exchange) : (s.at_ r exchange).Inv jwt where
  spent := inv.spent
  once := inv.once
  requests r' other is := by
    rcases at_running is with ⟨rfl, rfl⟩ | ⟨-, before⟩
    · exact ⟨holds.gone, holds.positive, holds.remembered, holds.expires, holds.added⟩
    · have kept := inv.requests r' other before
      exact ⟨kept.gone, kept.positive, kept.remembered, kept.expires, kept.added⟩

theorem ended_running (is : (s.ended r).running r' = some other) :
    r' ≠ r ∧ s.running r' = some other := by
  simp only [ended, Function.update_apply] at is
  split_ifs at is with mine
  exact ⟨mine, is⟩

theorem ended_deleting (apart : r' ≠ r) (held : s.deleting jti = some r') :
    (s.ended r).deleting jti = some r' := by
  simp [ended, held, apart]

theorem ended_adding (apart : r' ≠ r) (held : s.adding jti = some r') :
    (s.ended r).adding jti = some r' := by
  simp [ended, held, apart]

theorem Inv.ended (inv : s.Inv jwt) : (s.ended r).Inv jwt where
  spent := inv.spent
  once := inv.once
  requests r' other is := by
    obtain ⟨apart, before⟩ := ended_running is
    have kept := inv.requests r' other before
    refine ⟨fun jti mem => ?_, kept.positive, kept.remembered, kept.expires, fun stage => ?_⟩
    · exact ⟨ended_deleting apart (kept.gone jti mem).1, (kept.gone jti mem).2⟩
    · exact ⟨ended_adding apart (kept.added stage).1, (kept.added stage).2⟩

theorem Inv.purged (inv : s.Inv jwt) (is : s.running r = some exchange) {gone : List Str}
    (purgeable : gone.all (s.purgeable exchange.clock) = true) (timed : exchange.stage = .timed) :
    { s.at_ r { exchange with gone, stage := .purged } with
      deleting := fun jti => if jti ∈ gone then some r else s.deleting jti : Exchanges }.Inv jwt where
  spent := inv.spent
  once := inv.once
  requests r' other is' := by
    have free : ∀ jti ∈ gone, s.deleting jti = none ∧
        ∃ row, Table.get (·.jti) s.used jti = some row ∧ row.expiresAt ≤ exchange.clock := by
      intro jti mem
      have can := List.all_eq_true.mp purgeable jti mem
      rw [Exchanges.purgeable, Bool.and_eq_true, Option.any_eq_true] at can
      obtain ⟨⟨row, found, expired⟩, free⟩ := can
      exact ⟨of_decide_eq_true free, row, found, of_decide_eq_true expired⟩
    rcases at_running is' with ⟨rfl, rfl⟩ | ⟨-, before⟩
    · have kept := inv.requests r' exchange is
      refine ⟨fun jti mem => ⟨if_pos mem, (free jti mem).2⟩, kept.positive, kept.remembered,
        fun _ => kept.expires (by simp [timed]), nofun⟩
    · have kept := inv.requests r' other before
      refine ⟨fun jti mem => ?_, kept.positive, kept.remembered, kept.expires, kept.added⟩
      have held := (kept.gone jti mem).1
      have apart : jti ∉ gone := fun taken => by
        rw [(free jti taken).1] at held
        cases held
      exact ⟨(if_neg apart).trans held, (kept.gone jti mem).2⟩

theorem Inv.added (inv : s.Inv jwt) (is : s.running r = some exchange) (unused : exchange.stage = .unused)
    (absent : s.found exchange (jwt.claims exchange.assertion).jti = none)
    (free : s.adding (jwt.claims exchange.assertion).jti = none) :
    { s.at_ r { exchange with stage := .added } with
      adding := Function.update s.adding (jwt.claims exchange.assertion).jti (some r) :
        Exchanges }.Inv jwt where
  spent := inv.spent
  once := inv.once
  requests r' other is' := by
    rcases at_running is' with ⟨rfl, rfl⟩ | ⟨-, before⟩
    · have kept := inv.requests r' exchange is
      exact ⟨kept.gone, kept.positive, kept.remembered, fun _ => kept.expires (by simp [unused]),
        fun _ => ⟨Function.update_self .., absent⟩⟩
    · have kept := inv.requests r' other before
      refine ⟨kept.gone, kept.positive, kept.remembered, kept.expires, fun stage => ?_⟩
      obtain ⟨held, unseen⟩ := kept.added stage
      refine ⟨(Function.update_of_ne ?_ ..).trans held, unseen⟩
      intro same
      rw [same, free] at held
      cases held

theorem found_none (exchange : Exchange) :
    Table.get (·.jti) (s.used.filter (·.jti ∉ exchange.gone)) jti = s.found exchange jti := by
  rw [Table.get_filter_key (· ∉ exchange.gone), found]
  by_cases mem : jti ∈ exchange.gone <;> simp [mem]

def Rows (jwt : Jwt) (s : Exchanges) (exchange : Exchange) : List UsedClientAssertion :=
  s.used.filter (·.jti ∉ exchange.gone) ++
    [⟨(jwt.claims exchange.assertion).jti, exchange.clientId, exchange.expiresAt⟩]

theorem get_rows (exchange : Exchange) :
    Table.get (·.jti) (Rows jwt s exchange) jti = (s.found exchange jti).or
      (if (jwt.claims exchange.assertion).jti = jti then
        some ⟨(jwt.claims exchange.assertion).jti, exchange.clientId, exchange.expiresAt⟩ else none) := by
  rw [Rows, Table.get_append, found_none]
  by_cases mine : (jwt.claims exchange.assertion).jti = jti <;> simp [Table.get, mine]

theorem get_rows_kept {row : UsedClientAssertion} (kept : jti ∉ exchange.gone)
    (is : Table.get (·.jti) s.used jti = some row) :
    Table.get (·.jti) (Rows jwt s exchange) jti = some row := by
  rw [get_rows, found, if_neg kept, is]
  rfl

theorem Inv.unspent (inv : s.Inv jwt) (clear : s.Clear jwt (.commit r))
    (is : s.running r = some exchange) (stage : exchange.stage = .added) :
    exchange.assertion ∉ s.issued := by
  intro mem
  have holds := inv.requests r exchange is
  have seen := holds.remembered mem
  have absent := (holds.added stage).2
  rw [found, if_neg (clear exchange is r exchange is mem)] at absent
  rw [absent] at seen
  cases seen

theorem Inv.committed (inv : s.Inv jwt) (clear : s.Clear jwt (.commit r))
    (is : s.running r = some exchange) (stage : exchange.stage = .added) :
    { s.ended r with
      used := Rows jwt s exchange
      committed := max s.committed exchange.clock
      issued := s.issued ++ [exchange.assertion] : Exchanges }.Inv jwt := by
  have own := inv.requests r exchange is
  obtain ⟨adding, absent⟩ := own.added stage
  refine ⟨fun r' other is' => ?_, fun assertion mem => ?_, ?_⟩
  · obtain ⟨apart, before⟩ := ended_running is'
    have kept := inv.requests r' other before
    refine ⟨fun jti mem => ?_, kept.positive, fun mem => ?_, kept.expires, fun other_stage => ?_⟩
    · obtain ⟨held, row, found, expired⟩ := kept.gone jti mem
      have left : jti ∉ exchange.gone := fun mine => by
        rw [(own.gone jti mine).1] at held
        exact apart (Option.some.inj held).symm
      exact ⟨ended_deleting apart held, row, get_rows_kept left found, expired⟩
    · rcases List.mem_append.mp mem with old | new
      · obtain ⟨row, found⟩ := Option.isSome_iff_exists.mp (kept.remembered old)
        have left := clear exchange is r' other before old
        exact Option.isSome_iff_exists.mpr ⟨row, get_rows_kept left found⟩
      · rw [List.mem_singleton.mp new]
        show (Table.get _ (Rows jwt s exchange) _).isSome = true
        rw [get_rows, absent, if_pos rfl]
        rfl
    · obtain ⟨held, unseen⟩ := kept.added other_stage
      refine ⟨ended_adding apart held, ?_⟩
      have differs : (jwt.claims exchange.assertion).jti ≠ (jwt.claims other.assertion).jti := by
        intro same
        rw [← same, adding] at held
        exact apart (Option.some.inj held).symm
      simp only [found] at unseen ⊢
      split_ifs at unseen ⊢ with gone
      · rfl
      · rw [get_rows, if_neg differs, found, unseen]
        simp
  · rcases List.mem_append.mp mem with old | new
    · rcases inv.spent assertion old with ⟨row, exp, found, number, later⟩ | ⟨exp, number, past⟩
      · by_cases mine : (jwt.claims assertion).jti ∈ exchange.gone
        · obtain ⟨-, row', found', expired⟩ := own.gone _ mine
          obtain rfl := Option.some.inj (found.symm.trans found')
          refine .inr ⟨exp, number, (later.trans expired).trans ?_⟩
          exact Int.ofNat_le.mpr (le_max_right s.committed exchange.clock)
        · exact .inl ⟨row, exp, get_rows_kept mine found, number, later⟩
      · exact .inr ⟨exp, number, past.trans (Int.ofNat_le.mpr (le_max_left s.committed exchange.clock))⟩
    · obtain rfl := List.mem_singleton.mp new
      obtain ⟨exp, number, expiresAt⟩ := own.expires (by simp [stage])
      refine .inl ⟨_, exp, (get_rows exchange).trans (by rw [absent, if_pos rfl]; rfl), number, ?_⟩
      exact expiresAt ▸ int_le_fromtimestamp (own.positive exp number)
  · refine List.nodup_append.mpr ⟨inv.once, List.nodup_singleton _, ?_⟩
    rintro old mem new last rfl
    exact inv.unspent clear is stage (List.mem_singleton.mp last ▸ mem)

end Moves

section Exchanged

variable {jwt : Jwt} {publicKey : Str → Option Str}

theorem Inv.verified {s : Exchanges} (inv : s.Inv jwt) {r read : Nat} {clientId assertion key : Str}
    (later : s.committed ≤ read) (verifies : jwt.verifies key assertion read = true) :
    (s.at_ r { clientId, assertion, clock := read }).Inv jwt := by
  refine inv.at_ ⟨nofun, fun exp number => ?_, fun mem => ?_, nofun, nofun⟩
  · have valid := jwt.unexpired key assertion read exp verifies number
    simp only [second] at valid
    omega
  · rcases inv.spent assertion mem with ⟨row, exp, found, -⟩ | ⟨exp, number, past⟩
    · exact Option.isSome_iff_exists.mpr ⟨row, found⟩
    · have valid := jwt.unexpired key assertion read exp verifies number
      omega

theorem Inv.kept {s s' : Exchanges} {label : Statement} (inv : s.Inv jwt) (clear : s.Clear jwt label)
    (taken : Step jwt publicKey s label s') : s'.Inv jwt := by
  cases label with
  | verify r clientId assertion read =>
    simp only [Step, step] at taken
    split at taken
    · cases taken
    · split_ifs at taken with can
      obtain ⟨-, later, verifies, -⟩ := can
      exact Option.some.inj taken ▸ inv.verified later verifies
  | readClock r now =>
    simp only [Step, step] at taken
    split at taken
    · cases taken
    · next exchange is =>
      split at taken
      · next exp number =>
        split_ifs at taken with can
        obtain ⟨-, later, -⟩ := can
        have holds := inv.requests r exchange is
        refine Option.some.inj taken ▸ inv.at_ ⟨fun jti mem => ?_, holds.positive,
          holds.remembered, fun _ => ⟨exp, number, rfl⟩, by simp⟩
        obtain ⟨held, row, found, expired⟩ := holds.gone jti mem
        exact ⟨held, row, found, expired.trans (Int.ofNat_le.mpr later)⟩
      · cases taken
  | purge r gone =>
    simp only [Step, step] at taken
    split at taken
    · cases taken
    · next exchange is =>
      split_ifs at taken with can
      exact Option.some.inj taken ▸ inv.purged is can.2 can.1
  | lookup r =>
    simp only [Step, step] at taken
    split at taken
    · cases taken
    · next exchange is =>
      split_ifs at taken with can
      have holds := inv.requests r exchange is
      exact Option.some.inj taken ▸ inv.at_ ⟨holds.gone, holds.positive, holds.remembered,
        fun _ => holds.expires (by simp [can.1]), by simp⟩
  | add r =>
    simp only [Step, step] at taken
    split at taken
    · cases taken
    · next exchange is =>
      split_ifs at taken with can
      obtain ⟨unused, absent, free⟩ := can
      exact Option.some.inj taken ▸ inv.added is unused (Option.isNone_iff_eq_none.mp absent) free
  | commit r =>
    simp only [Step, step] at taken
    split at taken
    · cases taken
    · next exchange is =>
      split_ifs at taken with stage
      exact Option.some.inj taken ▸ inv.committed clear is stage
  | abort r => exact Option.some.inj taken ▸ inv.ended

structure Fresh (s : Exchanges) : Prop where
  idle : s.running = fun _ => none
  none : s.issued = []

theorem Fresh.inv {s : Exchanges} (fresh : s.Fresh) : s.Inv jwt where
  requests r exchange is := by
    rw [fresh.idle] at is
    cases is
  spent assertion mem := by
    rw [fresh.none] at mem
    cases mem
  once := by
    rw [fresh.none]
    exact List.nodup_nil

/-- In every run in which no request commits the purge of a row while an assertion that it
remembers is verified and in progress: an assertion buys at most one token. -/
theorem assertion_buys_once {start s : Exchanges} {trace : List (Runs.Step Exchanges Statement)}
    (fresh : start.Fresh) (run : Run (Step jwt publicKey) start trace s)
    (clear : ∀ t ∈ trace, t.before.Clear jwt t.label) : s.issued.Nodup :=
  (run.invariant_of_guarded (Inv jwt) (Clear jwt) fresh.inv
    (fun _ _ _ inv clear taken => inv.kept clear taken) clear).once

end Exchanged

section Example

def hundred : Jwt where
  claims _ := { iss := ['x'], sub := ['x'], jti := ['j'], exp := .int 100 }
  verifies _ _ time := time < 100000000
  unexpired key assertion time exp verifies number := by
    obtain rfl := Number.finite.inj (Option.some.inj number)
    have before : time < 100000000 := of_decide_eq_true verifies
    have cut : int (((100 : Int) : ℚ)) = 100 := by
      rw [int, if_pos (by norm_num), Int.floor_intCast]
    rw [cut, second]
    omega

/-- Two requests with one assertion. The second verifies it at 99 s and reads the clock at 100 s. -/
def slow : List Statement :=
  [.verify 0 ['x'] ['a'] 10000000, .readClock 0 10000000, .purge 0 [], .lookup 0, .add 0, .commit 0,
    .verify 1 ['x'] ['a'] 99000000, .readClock 1 100000000, .purge 1 [['j']], .lookup 1, .add 1,
    .commit 1]

theorem slow_assertion_buys_twice : ¬ ∀ (start s : Exchanges)
    (trace : List (Runs.Step Exchanges Statement)), start.Fresh →
    Run (Step hundred fun _ => some []) start trace s → s.issued.Nodup := by
  intro holds
  have run := @run_enabled _ _ {} (step hundred fun _ => some []) slow (by decide +kernel)
  have once := holds {} _ _ ⟨rfl, rfl⟩ run
  exact absurd once (by decide +kernel)

def prompt : List Statement :=
  [.verify 0 ['x'] ['a'] 10000000, .readClock 0 10000000, .purge 0 [], .lookup 0, .add 0, .commit 0]

theorem prompt_buys_once : ((prompt.foldl (nextOf (step hundred fun _ => some [])) {}).issued).Nodup := by
  have run := @run_enabled _ _ {} (step hundred fun _ => some []) prompt (by decide +kernel)
  refine @assertion_buys_once hundred _ _ _ _ ⟨rfl, rfl⟩ run ?_
  have none : ((prompt.take 5).foldl (nextOf (step hundred fun _ => some [])) {}).issued = [] := by
    decide +kernel
  intro t mem
  simp only [prompt, stepsOf, List.mem_cons, List.not_mem_nil, or_false] at mem
  rcases mem with rfl | rfl | rfl | rfl | rfl | rfl
  · trivial
  · trivial
  · trivial
  · trivial
  · trivial
  · intro _ _ _ other _ before
    change other.assertion ∈
      ((prompt.take 5).foldl (nextOf (step hundred fun _ => some [])) {}).issued at before
    rw [none] at before
    cases before

end Example

end Exchanges
end Smo.Sme.Assertions
