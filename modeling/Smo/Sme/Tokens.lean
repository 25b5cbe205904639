import Smo.Sme.Invokers
import Mathlib.Logic.Function.Basic

/-! Access tokens at SME (`sme/app/main.py`) as READ COMMITTED transactions: tokens granted,
invokers offboarded and tokens introspected, statement by statement in any order. -/
namespace Smo.Sme

open Runs

structure IssuedAccessToken where
  hash : Nat
  apiInvokerId : Str
  expiresAt : Nat
  scope : Option Str := none

structure View where
  clientId : Str
  exp : Nat
  role : Role
  scope : Option Str
  authzScope : Option Claim

/-- `introspect_token`, of the token and the invoker that its two reads found. -/
def introspectToken (rec : IssuedAccessToken) (registration : Option InvokerRegistration) : View where
  clientId := rec.apiInvokerId
  exp := rec.expiresAt
  role := registration.elim .rapp (·.kind)
  scope := rec.scope
  authzScope := registration.bind (·.authzScope)

inductive Progress
  | issuing (id : Str)
  | issued (token : IssuedAccessToken) (now : Nat)
  | offboarding (id : Str)
  | revoked (id : Str) (hashes : List Nat)
  | removed (id : Str) (hashes : List Nat)
  | introspecting (rec : IssuedAccessToken)

/-- The committed rows, the requests in flight, who holds the lock of an invoker's row, and the
invokers whose offboarding was committed. -/
structure Sessions where
  invokers : List InvokerRegistration
  tokens : List IssuedAccessToken := []
  running : Nat → Option Progress := fun _ => none
  locked : Str → Option Nat := fun _ => none
  offboarded : List Str := []

inductive Statement
  | token (r : Nat) (id : Str)
  | flush (r : Nat) (token : IssuedAccessToken) (now : Nat)
  | offboard (r : Nat) (id : Str)
  | deleteTokens (r : Nat)
  | deleteInvoker (r : Nat)
  | introspect (r : Nat) (hash now : Nat)
  | answer (r : Nat)
  | commit (r : Nat)
  | abort (r : Nat)
  | edit (id : Str) (kind : Role) (claim : Option Claim)

namespace Sessions

def invoker (s : Sessions) (id : Str) : Option InvokerRegistration :=
  Table.get (·.apiInvokerId) s.invokers id

def at_ (s : Sessions) (r : Nat) (progress : Option Progress) : Sessions :=
  { s with running := Function.update s.running r progress }

def lock (s : Sessions) (r : Nat) (id : Str) : Sessions :=
  { s with locked := Function.update s.locked id (some r) }

def ended (s : Sessions) (r : Nat) : Sessions :=
  { s.at_ r none with locked := fun id => if s.locked id = some r then none else s.locked id }

/-- One statement. A write of a row waits for its lock; an update that finds no row fails. -/
def step (s : Sessions) : Statement → Option Sessions
  | .token r id =>
    if s.running r = none ∧ (s.invoker id).isSome then some (s.at_ r (some (.issuing id))) else none
  | .flush r token now =>
    match s.running r with
    | some (.issuing id) =>
      if token.apiInvokerId = id ∧ (s.invoker id).isSome ∧ s.locked id = none then
        some ((s.at_ r (some (.issued token now))).lock r id)
      else none
    | _ => none
  | .offboard r id =>
    if s.running r = none ∧ (s.invoker id).isSome then some (s.at_ r (some (.offboarding id)))
    else none
  | .deleteTokens r =>
    match s.running r with
    | some (.offboarding id) =>
      let mine := s.tokens.filter (·.apiInvokerId = id)
      some (s.at_ r (some (.revoked id (mine.map (·.hash)))))
    | _ => none
  | .deleteInvoker r =>
    match s.running r with
    | some (.revoked id hashes) =>
      if s.locked id = none then some ((s.at_ r (some (.removed id hashes))).lock r id) else none
    | _ => none
  | .introspect r hash now =>
    match Table.get (·.hash) s.tokens hash with
    | some rec =>
      if s.running r = none ∧ now < rec.expiresAt then some (s.at_ r (some (.introspecting rec)))
      else none
    | none => none
  | .answer r =>
    match s.running r with
    | some (.introspecting _) => some (s.at_ r none)
    | _ => none
  | .commit r =>
    match s.running r with
    | some (.issued token now) =>
      some { s.ended r with
        tokens := s.tokens ++ [token]
        invokers := tokenIssued token.apiInvokerId now s.invokers }
    | some (.removed id hashes) =>
      some { s.ended r with
        tokens := s.tokens.filter (·.hash ∉ hashes)
        invokers := s.invokers.filter (·.apiInvokerId ≠ id)
        offboarded := s.offboarded ++ [id] }
    | _ => none
  | .abort r => some (s.ended r)
  | .edit id kind claim =>
    if s.locked id = none then
      some { s with invokers := Table.modify (·.apiInvokerId) s.invokers id fun invoker =>
        { invoker with kind, authzScope := claim } }
    else none

def Step (s : Sessions) (label : Statement) (s' : Sessions) : Prop := s.step label = some s'

def view (s : Sessions) (r : Nat) : Option View :=
  match s.running r with
  | some (.introspecting rec) => some (introspectToken rec (s.invoker rec.apiInvokerId))
  | _ => none

/-- When an offboarding commits, it has deleted every token of the invoker, and no introspection
is between its reads of such a token and of the invoker. -/
def Clear (s : Sessions) : Statement → Prop
  | .commit r => ∀ id hashes, s.running r = some (.removed id hashes) →
      (∀ token ∈ s.tokens, token.apiInvokerId = id → token.hash ∈ hashes) ∧
      ∀ r' rec, s.running r' = some (.introspecting rec) → rec.apiInvokerId ≠ id
  | _ => True

/-- What an introspection answers is the invoker's as it is held, and it was not offboarded. -/
def Current (s : Sessions) (answered : View) : Prop :=
  answered.clientId ∉ s.offboarded ∧ ∃ row, s.invoker answered.clientId = some row ∧
    answered.role = row.kind ∧ answered.authzScope = row.authzScope

def Holds (s : Sessions) (r : Nat) : Progress → Prop
  | .issued token _ => (s.invoker token.apiInvokerId).isSome ∧ s.locked token.apiInvokerId = some r
  | .removed id _ => s.locked id = some r
  | .introspecting rec => (s.invoker rec.apiInvokerId).isSome
  | _ => True

structure Inv (s : Sessions) : Prop where
  tokens : ∀ token ∈ s.tokens, (s.invoker token.apiInvokerId).isSome
  requests : ∀ r progress, s.running r = some progress → s.Holds r progress
  gone : ∀ id ∈ s.offboarded, s.invoker id = none

section Moves

variable {s s' : Sessions} {r r' : Nat} {id : Str} {progress : Progress}

theorem at_running (next : Option Progress) :
    (s.at_ r next).running r' = if r' = r then next else s.running r' := by
  simp [at_, Function.update_apply]

theorem Inv.at_ (inv : s.Inv) (holds : s.Holds r progress) : (s.at_ r (some progress)).Inv where
  tokens := inv.tokens
  gone := inv.gone
  requests r' other is := by
    rw [at_running] at is
    split_ifs at is with mine
    · obtain rfl := Option.some.inj is
      rw [mine]
      exact holds
    · exact inv.requests r' other is

theorem Inv.lock (inv : s.Inv) (free : s.locked id = none) : (s.lock r id).Inv where
  tokens := inv.tokens
  gone := inv.gone
  requests r' other is := by
    have holds := inv.requests r' other is
    have kept : ∀ name, s.locked name = some r' → (s.lock r id).locked name = some r' := by
      intro name held
      have apart : name ≠ id := by
        rintro rfl
        rw [free] at held
        cases held
      simpa [Sessions.lock, apart] using held
    cases other with
    | issued token now => exact ⟨holds.1, kept _ holds.2⟩
    | removed name hashes => exact kept _ holds
    | introspecting rec => exact holds
    | issuing _ | offboarding _ | revoked _ _ => trivial

theorem ended_running (is : (s.ended r).running r' = some progress) :
    r' ≠ r ∧ s.running r' = some progress := by
  simp only [ended, at_running] at is
  split_ifs at is with mine
  exact ⟨mine, is⟩

theorem ended_locked (apart : r' ≠ r) (held : s.locked id = some r') :
    (s.ended r).locked id = some r' := by
  simp [ended, held, apart]

theorem Inv.ended (inv : s.Inv) : (s.ended r).Inv where
  tokens := inv.tokens
  gone := inv.gone
  requests r' other is := by
    obtain ⟨apart, before⟩ := ended_running is
    have holds := inv.requests r' other before
    cases other with
    | issued token now => exact ⟨holds.1, ended_locked apart holds.2⟩
    | removed name hashes => exact ended_locked apart holds
    | introspecting rec => exact holds
    | issuing _ | offboarding _ | revoked _ _ => trivial

theorem invoker_modify {rows : List InvokerRegistration} {name : Str}
    (change : InvokerRegistration → InvokerRegistration)
    (keeps : ∀ row, (change row).apiInvokerId = row.apiInvokerId) :
    (Table.get (·.apiInvokerId) (Table.modify (·.apiInvokerId) rows id change) name).isSome =
      (Table.get (·.apiInvokerId) rows name).isSome := by
  rw [Table.get_modify change keeps]
  split_ifs <;> simp

theorem Inv.modified (inv : s.Inv) (change : InvokerRegistration → InvokerRegistration)
    (keeps : ∀ row, (change row).apiInvokerId = row.apiInvokerId) :
    { s with invokers := Table.modify (·.apiInvokerId) s.invokers id change : Sessions }.Inv where
  tokens token mem := (invoker_modify change keeps).trans (inv.tokens token mem)
  gone name mem := by
    have none := inv.gone name mem
    rw [← Option.not_isSome_iff_eq_none] at none ⊢
    exact fun found => none ((invoker_modify change keeps).symm.trans found)
  requests r' other is := by
    have holds := inv.requests r' other is
    cases other with
    | issued token now => exact ⟨(invoker_modify change keeps).trans holds.1, holds.2⟩
    | removed name hashes => exact holds
    | introspecting rec => exact (invoker_modify change keeps).trans holds
    | issuing _ | offboarding _ | revoked _ _ => trivial

theorem Inv.granted {token : IssuedAccessToken} (inv : s.Inv)
    (there : (s.invoker token.apiInvokerId).isSome) :
    { s with tokens := s.tokens ++ [token] : Sessions }.Inv where
  tokens other mem := by
    rcases List.mem_append.mp mem with old | new
    · exact inv.tokens other old
    · obtain rfl := List.mem_singleton.mp new
      exact there
  gone := inv.gone
  requests r' other is := by
    have holds := inv.requests r' other is
    cases other with
    | issued | removed | introspecting => exact holds
    | issuing _ | offboarding _ | revoked _ _ => trivial

theorem Inv.removed {hashes : List Nat} (inv : s.Inv) (is : s.running r = some (.removed id hashes))
    (deleted : ∀ token ∈ s.tokens, token.apiInvokerId = id → token.hash ∈ hashes)
    (unread : ∀ r' rec, s.running r' = some (.introspecting rec) → rec.apiInvokerId ≠ id) :
    { s.ended r with
      tokens := s.tokens.filter (·.hash ∉ hashes)
      invokers := s.invokers.filter (·.apiInvokerId ≠ id)
      offboarded := s.offboarded ++ [id] : Sessions }.Inv := by
  have others : ∀ name ≠ id, Table.get (·.apiInvokerId) (s.invokers.filter (·.apiInvokerId ≠ id)) name =
      s.invoker name := fun name apart =>
    (Table.get_filter_key (· ≠ id)).trans (if_pos (decide_eq_true apart))
  have mine : s.locked id = some r := inv.requests r _ is
  refine ⟨fun token mem => ?_, fun r' other is' => ?_, fun name mem => ?_⟩
  · obtain ⟨mem, left⟩ := List.mem_filter.mp mem
    have apart : token.apiInvokerId ≠ id := fun same => by simp [deleted token mem same] at left
    exact (congrArg Option.isSome (others _ apart)).trans (inv.tokens token mem)
  · obtain ⟨apart, before⟩ := ended_running is'
    have holds := inv.requests r' other before
    cases other with
    | issued token now =>
      have differs : token.apiInvokerId ≠ id := by
        intro same
        rw [← same, holds.2] at mine
        exact apart (Option.some.inj mine)
      exact ⟨(congrArg Option.isSome (others _ differs)).trans holds.1, ended_locked apart holds.2⟩
    | removed name hashes => exact ended_locked apart holds
    | introspecting rec =>
      exact (congrArg Option.isSome (others _ (unread r' rec before))).trans holds
    | issuing _ | offboarding _ | revoked _ _ => trivial
  · show Table.get _ _ _ = none
    rw [Table.get_filter_key (· ≠ id)]
    by_cases same : name = id
    · simp [same]
    · rw [if_pos (decide_eq_true same)]
      rcases List.mem_append.mp mem with old | new
      · exact inv.gone name old
      · exact absurd (List.mem_singleton.mp new) same

end Moves

theorem Inv.kept {s s' : Sessions} {label : Statement} (inv : s.Inv) (clear : s.Clear label)
    (taken : Step s label s') : s'.Inv := by
  cases label with
  | token r id =>
    simp only [Step, step] at taken
    split_ifs at taken
    exact Option.some.inj taken ▸ inv.at_ trivial
  | flush r token now =>
    simp only [Step, step] at taken
    split at taken
    · split_ifs at taken with can
      obtain ⟨rfl, there, free⟩ := can
      obtain rfl := Option.some.inj taken
      have locked : (s.lock r token.apiInvokerId).locked token.apiInvokerId = some r := by
        simp [Sessions.lock]
      have holds : (s.lock r token.apiInvokerId).Holds r (.issued token now) := ⟨there, locked⟩
      exact (inv.lock free).at_ holds
    · cases taken
  | offboard r id =>
    simp only [Step, step] at taken
    split_ifs at taken
    exact Option.some.inj taken ▸ inv.at_ trivial
  | deleteTokens r =>
    simp only [Step, step] at taken
    split at taken
    · exact Option.some.inj taken ▸ inv.at_ trivial
    · cases taken
  | deleteInvoker r =>
    simp only [Step, step] at taken
    split at taken
    · next id hashes _ =>
      split_ifs at taken with free
      obtain rfl := Option.some.inj taken
      have locked : (s.lock r id).locked id = some r := by simp [Sessions.lock]
      have holds : (s.lock r id).Holds r (.removed id hashes) := locked
      exact (inv.lock free).at_ holds
    · cases taken
  | introspect r hash now =>
    simp only [Step, step] at taken
    split at taken
    · next rec found =>
      split_ifs at taken
      exact Option.some.inj taken ▸ inv.at_ (inv.tokens rec (Table.mem_of_get found))
    · cases taken
  | answer r =>
    simp only [Step, step] at taken
    split at taken
    · obtain rfl := Option.some.inj taken
      refine ⟨inv.tokens, fun r' other is => ?_, inv.gone⟩
      rw [at_running] at is
      split_ifs at is
      exact inv.requests r' other is
    · cases taken
  | commit r =>
    simp only [Step, step] at taken
    split at taken
    · next token now is =>
      obtain rfl := Option.some.inj taken
      have there := (inv.requests r _ is).1
      exact (inv.ended.granted there).modified _ fun _ => rfl
    · next id hashes is =>
      obtain rfl := Option.some.inj taken
      obtain ⟨deleted, unread⟩ := clear id hashes is
      exact inv.removed is deleted unread
    · cases taken
  | abort r => exact Option.some.inj taken ▸ inv.ended
  | edit id kind claim =>
    simp only [Step, step] at taken
    split_ifs at taken
    exact Option.some.inj taken ▸ inv.modified _ fun _ => rfl

theorem Inv.current {s : Sessions} {r : Nat} {answered : View} (inv : s.Inv)
    (is : s.view r = some answered) : s.Current answered := by
  simp only [view] at is
  split at is
  · next rec reading =>
    obtain rfl := Option.some.inj is
    obtain ⟨row, found⟩ := Option.isSome_iff_exists.mp (inv.requests r _ reading)
    refine ⟨fun gone => ?_, row, found, ?_, ?_⟩
    · cases found.symm.trans (inv.gone _ gone)
    · simp [introspectToken, found]
    · simp [introspectToken, found]
  · cases is

structure Fresh (s : Sessions) : Prop where
  idle : s.running = fun _ => none
  unlocked : s.locked = fun _ => none
  none : s.offboarded = []
  tokens : ∀ token ∈ s.tokens, (s.invoker token.apiInvokerId).isSome

theorem Fresh.inv {s : Sessions} (fresh : s.Fresh) : s.Inv where
  tokens := fresh.tokens
  requests r progress is := by
    rw [fresh.idle] at is
    cases is
  gone id mem := by
    rw [fresh.none] at mem
    cases mem

/-- In every run in which each offboarding that commits has deleted every token of its invoker,
with no introspection between the reads of such a token and of the invoker: every introspection
that answers a token as active answers for an invoker that is not offboarded, with the role and
the claim that its row holds. -/
theorem introspection_current {start s : Sessions} {trace : List (Runs.Step Sessions Statement)}
    (fresh : start.Fresh) (run : Run Step start trace s)
    (clear : ∀ t ∈ trace, t.before.Clear t.label) :
    ∀ t ∈ trace, ∀ r answered, t.label = .answer r → t.before.view r = some answered →
      t.before.Current answered :=
  run.transitions_of_guarded Inv Clear fresh.inv (fun _ _ _ inv clear taken => inv.kept clear taken)
    (fun t => ∀ r answered, t.label = .answer r → t.before.view r = some answered →
      t.before.Current answered)
    (fun _ _ _ inv _ _ _ _ _ is => inv.current is) clear

section Example

def rapp : InvokerRegistration :=
  { apiInvokerId := ['x'], publicKey := ['r'], kind := .internal,
    authzScope := Scope.toClaim (some { regions := some ["north"] }) }

def held : Sessions := { invokers := [rapp] }

def bearer : IssuedAccessToken := { hash := 7, apiInvokerId := ['x'], expiresAt := 3600 }

def overtaken : List Statement :=
  [.token 0 ['x'], .offboard 1 ['x'], .deleteTokens 1, .flush 0 bearer 0, .commit 0,
    .deleteInvoker 1, .commit 1, .introspect 2 7 60, .answer 2]

def introspected : List Statement :=
  [.token 0 ['x'], .flush 0 bearer 0, .commit 0, .introspect 2 7 60, .answer 2]

theorem held_fresh : held.Fresh := ⟨rfl, rfl, rfl, fun _ mem => by cases mem⟩

/-- The token outlives its invoker, and is answered with no scope claim. -/
theorem token_outlives_invoker : ¬ ∀ (start s : Sessions)
    (trace : List (Runs.Step Sessions Statement)), start.Fresh → Run Step start trace s →
    ∀ t ∈ trace, ∀ r answered, t.label = .answer r → t.before.view r = some answered →
      t.before.Current answered := by
  intro holds
  have run := @run_enabled _ _ held step overtaken rfl
  have last := holds held _ _ held_fresh run _ (List.mem_of_getLast? (by rfl)) 2
    (introspectToken bearer none) rfl rfl
  exact last.1 (by decide)

theorem introspection_current_first :
    ((introspected.take 4).foldl (nextOf step) held).Current (introspectToken bearer (some rapp)) := by
  refine introspection_current held_fresh (@run_enabled _ _ held step introspected rfl)
    (fun t mem => ?_) _ (List.mem_of_getLast? (by rfl)) 2 (introspectToken bearer (some rapp)) rfl rfl
  simp only [introspected, stepsOf, List.mem_cons, List.not_mem_nil, or_false] at mem
  rcases mem with rfl | rfl | rfl | rfl | rfl
  · trivial
  · trivial
  · rintro id hashes is
    cases is
  · trivial
  · trivial

end Example

end Sessions
end Smo.Sme
