import Smo.RanNfOam.Southbound.NetconfClient

/-! Edits in a NETCONF session over SSH or TLS (`app/netconf_ssh.py`): one on the running
datastore, or several as one transaction of the candidate datastore. -/
namespace Smo.RanNfOam.NetconfSsh

open ConfigJobs NetconfClient

structure NetconfSshError where
  reason : String
  detail : String
  deriving DecidableEq, Repr

/-- `EditResult(False, exc.reason, exc.detail or None)`. -/
def NetconfSshError.result (exc : NetconfSshError) : EditResult :=
  rejected exc.reason (if exc.detail = "" then none else some exc.detail)

inductive Command where
  | lock
  | edit (change : Change)
  | commit
  | discard
  | unlock
  deriving DecidableEq, Repr

/-- A session with a server: opening it tells whether the candidate datastore is offered,
and an RPC is answered by an `<rpc-reply>`. -/
structure Session (σ : Type) where
  opening : σ → σ × Except NetconfSshError Bool
  rpc : Command → σ → σ × Except NetconfSshError Xml
  close : σ → σ

/-- `OPERATIONS`: what the model path knows. -/
def operations : List String := ["merge", "replace", "create", "delete", "remove"]

/-- The `ValueError` of an operation the model path does not know. -/
def unknownOperation (model : Bool) (edits : List Change) : Option String :=
  if model then
    (edits.find? (·.operation ∉ operations)).map fun edit =>
      s!"unknown edit operation '{edit.operation}'"
  else none

section Sending

variable {σ : Type} (session : Session σ)

def refusal (name : String) (outcome : EditResult) : EditResult :=
  let detail := match outcome.detail with
    | none => "refused"
    | some detail => if detail = "" then "refused" else detail
  rejected "NETCONF_RPC_FAILED" (some s!"{name}: {detail}")

def step (name : String) (command : Command) (s : σ) :
    σ × Except NetconfSshError EditResult :=
  match session.rpc command s with
  | (s, .error exc) => (s, .error exc)
  | (s, .ok root) =>
    let outcome := editOutcome root
    (s, .ok (if outcome.applied then outcome else refusal name outcome))

def editAll : List Change → (index : Nat) → σ →
    σ × Except NetconfSshError (Option (Nat × EditResult))
  | [], _, s => (s, .ok none)
  | edit :: edits, index, s =>
    match step session "edit-config" (.edit edit) s with
    | (s, .error exc) => (s, .error exc)
    | (s, .ok outcome) =>
      if outcome.applied then editAll edits (index + 1) s
      else (s, .ok (some (index, outcome)))

/-- The results of a transaction of `n` edits with one that was refused. -/
def refusals (n index : Nat) (refused : EditResult) : List EditResult :=
  let detail := refused.detail.getD "None"
  let aborted := rejected "NETCONF_TRANSACTION_ABORTED"
    (some s!"rolled back: sub-change {index + 1} of {n} was refused ({detail})")
  if n = 1 then [refused]
  else List.replicate index aborted ++ refused :: List.replicate (n - index - 1) aborted

def underLock (edits : List Change) (s : σ) :
    σ × Except NetconfSshError (List EditResult) :=
  match editAll session edits 0 s with
  | (s, .error exc) => (s, .error exc)
  | (s, .ok (some (index, refused))) =>
    ((step session "discard" .discard s).1, .ok (refusals edits.length index refused))
  | (s, .ok none) =>
    match step session "commit" .commit s with
    | (s, .error exc) => (s, .error exc)
    | (s, .ok committed) =>
      (if committed.applied then s else (step session "discard" .discard s).1,
        .ok (List.replicate edits.length committed))

/-- `candidate_edits`: the lock, the edits and the commit, and the unlock whatever happens. -/
def candidateEdits (offered : Bool) (edits : List Change) (s : σ) :
    σ × Except NetconfSshError (List EditResult) :=
  if !offered then
    (s, .ok (List.replicate edits.length (rejected "NETCONF_RPC_FAILED"
      (some "the server does not offer the candidate datastore (:candidate:1.0)"))))
  else
    match step session "lock" .lock s with
    | (s, .error exc) => (s, .error exc)
    | (s, .ok locked) =>
      if !locked.applied then (s, .ok (List.replicate edits.length locked))
      else
        let ended := underLock session edits s
        ((step session "unlock" .unlock ended.1).1, ended.2)

def within {α : Type} (body : Bool → σ → σ × Except NetconfSshError α) (s : σ) :
    σ × Except NetconfSshError α :=
  match session.opening s with
  | (s, .error exc) => (session.close s, .error exc)
  | (s, .ok offered) => ((session.close (body offered s).1), (body offered s).2)

/-- `send_edit_configs`: one result for each edit. -/
def sendEditConfigs (model : Bool) (edits : List Change) (s : σ) : σ × List EditResult :=
  match unknownOperation model edits with
  | some text => (s, List.replicate edits.length (rejected "NETCONF_RPC_FAILED" (some text)))
  | none =>
    match within session (fun offered => candidateEdits session offered edits) s with
    | (s, .error exc) => (s, List.replicate edits.length exc.result)
    | (s, .ok results) => (s, results)

def runningEdit (change : Change) (s : σ) : σ × Except NetconfSshError EditResult :=
  match session.rpc (.edit change) s with
  | (s, .error exc) => (s, .error exc)
  | (s, .ok root) => (s, .ok (editOutcome root))

/-- `candidate_transaction`: the first result of a transaction of one edit. -/
def candidateTransaction (offered : Bool) (change : Change) (s : σ) :
    σ × Except NetconfSshError EditResult :=
  match candidateEdits session offered [change] s with
  | (s, .error exc) => (s, .error exc)
  | (s, .ok results) => (s, .ok (results.headD { applied := false }))

/-- `send_edit_config`. -/
def sendEditConfig (model candidate : Bool) (change : Change) (s : σ) : σ × EditResult :=
  match unknownOperation model [change] with
  | some text => (s, rejected "NETCONF_RPC_FAILED" (some text))
  | none =>
    match within session (fun offered =>
        if candidate then candidateTransaction session offered change
        else runningEdit session change) s with
    | (s, .error exc) => (s, exc.result)
    | (s, .ok outcome) => (s, outcome)

end Sending

end Smo.RanNfOam.NetconfSsh
