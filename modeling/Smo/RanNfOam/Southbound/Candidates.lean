import Smo.RanNfOam.Southbound.NetconfSsh

/-! Candidate transactions with a server whose RPCs may each go wrong: what they leave in its
datastores (`candidate_edits` of `app/netconf_ssh.py`). -/
namespace Smo.RanNfOam.NetconfSsh.Candidates

open ConfigJobs NetconfClient

/-- A server, by the edits that its running datastore has and those that its candidate has beside
them, and its session with the client. -/
structure Server where
  running : List Change := []
  candidate : List Change := []
  locked : Bool := false
  alive : Bool := false
  asked : Nat := 0

/-- What a server makes of an RPC; `done`: it carries the RPC out. What is no `<rpc-reply>` is not
read, and one that says neither `<ok/>` nor `<rpc-error>` is. -/
inductive Conduct
  | obeys
  | refuses (error : List Xml)
  | garbles (done isReply : Bool)
  | stalls (done : Bool)
  | drops (done : Bool)

namespace Server

variable (s : Server)

def grants : Command → Bool
  | .lock => s.candidate.isEmpty
  | _ => true

def carryOut : Command → Server
  | .lock => { s with locked := s.candidate.isEmpty }
  | .edit change => { s with candidate := s.candidate ++ [change] }
  | .commit => { s with running := s.running ++ s.candidate, candidate := [] }
  | .discard => { s with candidate := [] }
  | .unlock => { s with locked := false }

def act (command : Command) (done : Bool) : Server := if done then s.carryOut command else s

def lose : Server :=
  { s with alive := false, locked := false, candidate := if s.locked then [] else s.candidate }

def follow (command : Command) : Conduct → Server
  | .obeys => if s.grants command then s.carryOut command else s
  | .refuses _ => s
  | .garbles done _ | .stalls done => s.act command done
  | .drops done => (s.act command done).lose

end Server

def rpcReply (children : List Xml) : Xml := .element "rpc-reply" [] "" children

def okReply : Xml := rpcReply [.element "ok" [] "" []]

def errorReply (error : List Xml) : Xml := rpcReply [.element "rpc-error" [] "" error]

def reply (granted : Bool) : Conduct → Except NetconfSshError Xml
  | .obeys => .ok (if granted then okReply else errorReply [])
  | .refuses error => .ok (errorReply error)
  | .garbles _ true => .ok (rpcReply [])
  | .garbles _ false =>
    .error ⟨"NETCONF_RPC_FAILED", "the server did not answer with <rpc-reply>"⟩
  | .stalls _ => .error ⟨"NETCONF_TIMEOUT", "no reply within the timeout"⟩
  | .drops _ => .error ⟨"NETCONF_UNREACHABLE", "the server closed the session"⟩

def server (offer : Except NetconfSshError Bool) (conduct : Nat → Conduct) : Session Server where
  opening s := ({ s with alive := true, locked := false, asked := 0 }, offer)
  rpc command s :=
    if s.alive then
      (({ s with asked := s.asked + 1 } : Server).follow command (conduct s.asked),
        reply (s.grants command) (conduct s.asked))
    else (s, .error ⟨"NETCONF_UNREACHABLE", "send failed"⟩)
  close := Server.lose

def lost (result : EditResult) : Prop :=
  result.applied = false ∧
    (result.reason = some "NETCONF_TIMEOUT" ∨ result.reason = some "NETCONF_UNREACHABLE")

/-- A transaction is carried out and reported so, or is not carried out and not reported, but for a
commit whose reply is lost; and the candidate is left as it was. -/
structure AllOrNothing (edits : List Change) (s s' : Server) (results : List EditResult) : Prop where
  running : (s'.running = s.running ++ edits ∧
      ((∀ result ∈ results, result.applied = true) ∨ ∀ result ∈ results, lost result)) ∨
    (s'.running = s.running ∧ ∀ result ∈ results, result.applied = false)
  candidate : s'.candidate = s.candidate

section Condition

variable (conduct : Nat → Conduct)

def unlocks : Conduct → Bool
  | .obeys => true
  | .refuses _ => false
  | .garbles done _ | .stalls done | .drops done => done

/-- The discard, as RPC number `i`, is carried out or its session lost, or the unlock is not carried
out; `held`: the candidate has edits. -/
def discarded (i : Nat) (held : Bool) : Bool :=
  !held ||
    match conduct i with
    | .obeys | .drops _ => true
    | .refuses _ => !unlocks (conduct (i + 1))
    | .garbles done _ | .stalls done => done || !unlocks (conduct (i + 1))

/-- The commit, as RPC number `i`. -/
def committed (i : Nat) (held : Bool) : Bool :=
  match conduct i with
  | .obeys | .drops _ => true
  | .refuses _ => discarded conduct (i + 1) held
  | .garbles true _ => !held
  | .garbles false true => discarded conduct (i + 1) held
  | .garbles false false => !held || !unlocks (conduct (i + 1))
  | .stalls done => done || !held || !unlocks (conduct (i + 1))

/-- The edits from RPC number `i` on. -/
def spared : List Change → (i : Nat) → (held : Bool) → Bool
  | [], i, held => committed conduct i held
  | _ :: edits, i, held =>
    match conduct i with
    | .obeys => spared edits (i + 1) true
    | .refuses _ => discarded conduct (i + 1) held
    | .garbles done true => discarded conduct (i + 1) (held || done)
    | .garbles done false | .stalls done =>
      !(held || done) || !unlocks (conduct (i + 1))
    | .drops _ => true

/-- From an RPC that goes wrong once the lock is granted, the candidate is cleared or the lock kept
until the session ends. -/
def Spared (model : Bool) (offer : Except NetconfSshError Bool) (edits : List Change) (s : Server) :
    Bool :=
  match unknownOperation model edits, offer, conduct 0 with
  | none, .ok true, .obeys => !s.candidate.isEmpty || spared conduct edits 1 false
  | _, _, _ => true

end Condition

section Steps

variable {offer : Except NetconfSshError Bool} {conduct : Nat → Conduct} {name : String}
  {command : Command} {s : Server}

def outcome (name : String) : Except NetconfSshError Xml → Except NetconfSshError EditResult
  | .error exc => .error exc
  | .ok root =>
    .ok (if (editOutcome (some root)).applied then editOutcome (some root)
      else refusal name (editOutcome (some root)))

theorem step_alive (alive : s.alive = true) : step (server offer conduct) name command s =
    (({ s with asked := s.asked + 1 } : Server).follow command (conduct s.asked),
      outcome name (reply (s.grants command) (conduct s.asked))) := by
  simp only [step, server, alive, if_true]
  cases reply (s.grants command) (conduct s.asked) <;> rfl

theorem step_dead (dead : s.alive = false) : step (server offer conduct) name command s =
    (s, .error ⟨"NETCONF_UNREACHABLE", "send failed"⟩) := by
  simp [step, server, dead]

theorem outcome_error (name : String) (error : List Xml) :
    ∃ refused : EditResult, refused.applied = false ∧ outcome name (.ok (errorReply error)) = .ok refused := by
  have other : Xml.localPart "rpc-error" ≠ "ok" := by decide
  refine ⟨_, ?_, rfl⟩
  simp [editOutcome, errorReply, rpcReply, Xml.children, Xml.localName, Xml.tag, other, rejected,
    refusal]

theorem outcome_evasion (name : String) : ∃ refused : EditResult, refused.applied = false ∧ ¬ lost refused ∧
    outcome name (.ok (rpcReply [])) = .ok refused := by
  refine ⟨_, ?_, ?_, rfl⟩
  · rfl
  · rintro ⟨-, reason | reason⟩ <;> exact absurd (Option.some.inj reason) (by decide)

end Steps

section Ends

variable (offer : Except NetconfSshError Bool) (conduct : Nat → Conduct)

def ended (s : Server) : Server := (step (server offer conduct) "unlock" .unlock s).1.lose

variable {offer conduct} {s : Server}

theorem ended_running : (ended offer conduct s).running = s.running := by
  cases alive : s.alive with
  | false => rw [ended, step_dead alive, Server.lose]
  | true =>
    rw [ended, step_alive alive]
    cases conduct s.asked with
    | obeys => rfl
    | refuses error => rfl
    | garbles done => cases done <;> rfl
    | stalls done => cases done <;> rfl
    | drops done => cases done <;> rfl

theorem ended_candidate (alive : s.alive = true) (locked : s.locked = true) :
    (ended offer conduct s).candidate = if unlocks (conduct s.asked) then s.candidate else [] := by
  rw [ended, step_alive alive]
  cases conduct s.asked with
  | obeys => rfl
  | refuses error => simp [Server.follow, Server.lose, locked, unlocks]
  | garbles done => cases done <;> simp [Server.follow, Server.act, Server.carryOut, Server.lose, locked, unlocks]
  | stalls done => cases done <;> simp [Server.follow, Server.act, Server.carryOut, Server.lose, locked, unlocks]
  | drops done => cases done <;> simp [Server.follow, Server.act, Server.carryOut, Server.lose, locked, unlocks]

theorem ended_empty (empty : s.candidate = []) : (ended offer conduct s).candidate = [] := by
  cases alive : s.alive with
  | false => simp [ended, step_dead alive, Server.lose, empty]
  | true =>
    rw [ended, step_alive alive]
    cases conduct s.asked with
    | obeys => simp [Server.follow, Server.grants, Server.carryOut, Server.lose, empty]
    | refuses error => simp [Server.follow, Server.lose, empty]
    | garbles done => cases done <;> simp [Server.follow, Server.act, Server.carryOut, Server.lose, empty]
    | stalls done => cases done <;> simp [Server.follow, Server.act, Server.carryOut, Server.lose, empty]
    | drops done => cases done <;> simp [Server.follow, Server.act, Server.carryOut, Server.lose, empty]

theorem ended_iff (alive : s.alive = true) (locked : s.locked = true) :
    (ended offer conduct s).candidate = [] ↔
      (s.candidate.isEmpty || !unlocks (conduct s.asked)) = true := by
  rw [ended_candidate alive locked]
  cases unlocks (conduct s.asked) <;> simp

theorem discarded_iff (alive : s.alive = true) (locked : s.locked = true) :
    (ended offer conduct (step (server offer conduct) "discard" .discard s).1).candidate = [] ↔
      discarded conduct s.asked (!s.candidate.isEmpty) = true := by
  rw [step_alive alive]
  have left : (ended offer conduct { s with asked := s.asked + 1 }).candidate = [] ↔
      (s.candidate.isEmpty || !unlocks (conduct (s.asked + 1))) = true := ended_iff alive locked
  cases is : conduct s.asked with
  | obeys => exact iff_of_true (ended_empty rfl) (by simp [discarded, is])
  | refuses error => simpa [discarded, is, Server.follow] using left
  | garbles done isReply =>
    cases done with
    | false => simpa [discarded, is, Server.follow, Server.act] using left
    | true => exact iff_of_true (ended_empty rfl) (by simp [discarded, is])
  | stalls done =>
    cases done with
    | false => simpa [discarded, is, Server.follow, Server.act] using left
    | true => exact iff_of_true (ended_empty rfl) (by simp [discarded, is])
  | drops done =>
    refine iff_of_true (ended_empty ?_) (by simp [discarded, is])
    cases done <;> simp [Server.follow, Server.act, Server.carryOut, Server.lose, locked]

theorem follow_running {command : Command} (other : command ≠ .commit) (done : Conduct) :
    (s.follow command done).running = s.running := by
  have carried : (s.carryOut command).running = s.running := by
    cases command with
    | commit => exact absurd rfl other
    | lock | edit | discard | unlock => rfl
  have acted : ∀ done, (s.act command done).running = s.running := by
    intro done
    cases done with
    | false => rfl
    | true => exact carried
  cases done with
  | obeys =>
    rw [Server.follow]
    split
    · exact carried
    · rfl
  | refuses error => rfl
  | garbles done | stalls done | drops done => exact acted done

theorem discard_running :
    (ended offer conduct (step (server offer conduct) "discard" .discard s).1).running = s.running := by
  rw [ended_running]
  cases alive : s.alive with
  | false => rw [step_dead alive]
  | true =>
    rw [step_alive alive]
    exact follow_running (by simp) _

theorem discard_empty (empty : s.candidate = []) :
    (step (server offer conduct) "discard" .discard s).1.candidate = [] := by
  cases alive : s.alive with
  | false => rw [step_dead alive, empty]
  | true =>
    rw [step_alive alive]
    cases conduct s.asked with
    | obeys => rfl
    | refuses error => exact empty
    | garbles done | stalls done => cases done <;> simp [Server.follow, Server.act, Server.carryOut, empty]
    | drops done => cases done <;> simp [Server.follow, Server.act, Server.carryOut, Server.lose, empty]

end Ends

section Transactions

variable {offer : Except NetconfSshError Bool} {conduct : Nat → Conduct} {edits rest : List Change}
  {s s' before : Server} {results : List EditResult} {index : Nat}

theorem untouched_iff (running : s'.running = s.running)
    (none : ∀ result ∈ results, result.applied = false) :
    AllOrNothing edits s s' results ↔ s'.candidate = s.candidate :=
  ⟨(·.candidate), fun candidate => ⟨.inr ⟨running, none⟩, candidate⟩⟩

def conclude (offer : Except NetconfSshError Bool) (conduct : Nat → Conduct) (n : Nat) :
    Server × Except NetconfSshError (Option (Nat × EditResult)) → Server × List EditResult
  | (s, .error exc) => (ended offer conduct s, List.replicate n exc.result)
  | (s, .ok (some (index, refused))) =>
    (ended offer conduct (step (server offer conduct) "discard" .discard s).1,
      refusals n index refused)
  | (s, .ok none) =>
    match step (server offer conduct) "commit" .commit s with
    | (s, .error exc) => (ended offer conduct s, List.replicate n exc.result)
    | (s, .ok committed) =>
      (ended offer conduct
          (if committed.applied then s else (step (server offer conduct) "discard" .discard s).1),
        List.replicate n committed)

theorem not_applied_of_refusals {n : Nat} {refused result : EditResult}
    (no : refused.applied = false) (mem : result ∈ refusals n index refused) :
    result.applied = false := by
  unfold refusals at mem
  split at mem
  · rw [List.mem_singleton.mp mem]
    exact no
  · rcases List.mem_append.mp mem with earlier | later
    · rw [List.eq_of_mem_replicate earlier]
      rfl
    · rcases List.mem_cons.mp later with rfl | after
      · exact no
      · rw [List.eq_of_mem_replicate after]
        rfl

theorem not_applied_of_error {n : Nat} {exc : NetconfSshError} {result : EditResult}
    (mem : result ∈ List.replicate n exc.result) : result.applied = false := by
  rw [List.eq_of_mem_replicate mem]
  rfl

theorem unreported_iff {result : EditResult} (running : s'.running = s.running ++ edits)
    (candidate : s'.candidate = s.candidate) (no : result.applied = false) (read : ¬ lost result) :
    AllOrNothing edits s s' (List.replicate edits.length result) ↔ edits = [] := by
  constructor
  · intro holds
    by_contra some_
    have mem : result ∈ List.replicate edits.length result := by simpa using some_
    rcases holds.running with ⟨-, all | isLost⟩ | ⟨same, -⟩
    · cases no.symm.trans (all result mem)
    · exact read (isLost result mem)
    · exact some_ (by simpa using running.symm.trans same)
  · rintro rfl
    exact ⟨.inr ⟨by simpa using running, fun _ mem => absurd mem List.not_mem_nil⟩, candidate⟩

theorem lost_of_error {n : Nat} {exc : NetconfSshError} {result : EditResult}
    (reason : exc.reason = "NETCONF_TIMEOUT" ∨ exc.reason = "NETCONF_UNREACHABLE")
    (mem : result ∈ List.replicate n exc.result) : lost result := by
  rw [List.eq_of_mem_replicate mem]
  exact ⟨rfl, reason.imp (congrArg some) (congrArg some)⟩

theorem outcome_ok {name : String} :
    outcome name (reply true .obeys) = .ok { applied := true } := rfl

section Aborted

variable {next : Server} (alive : next.alive = true) (locked : next.locked = true)
  (running : next.running = before.running) (clean : before.candidate = [])
  (none : ∀ result ∈ results, result.applied = false)

include running clean none

theorem lost_iff (empty : next.candidate = []) :
    AllOrNothing edits before (ended offer conduct next) results := by
  rw [untouched_iff (ended_running.trans running) none, clean]
  exact ended_empty empty

include alive locked

theorem left_iff : AllOrNothing edits before (ended offer conduct next) results ↔
    (next.candidate.isEmpty || !unlocks (conduct next.asked)) = true := by
  rw [untouched_iff (ended_running.trans running) none, clean]
  exact ended_iff alive locked

theorem refused_iff : AllOrNothing edits before
      (ended offer conduct (step (server offer conduct) "discard" .discard next).1) results ↔
    discarded conduct next.asked (!next.candidate.isEmpty) = true := by
  rw [untouched_iff (discard_running.trans running) none, clean]
  exact discarded_iff alive locked

end Aborted

theorem commit_iff (alive : s.alive = true) (locked : s.locked = true)
    (whole : s.candidate = edits) (running : s.running = before.running)
    (clean : before.candidate = []) :
    AllOrNothing edits before (conclude offer conduct edits.length (s, .ok none)).1
        (conclude offer conduct edits.length (s, .ok none)).2 ↔
      committed conduct s.asked (!edits.isEmpty) = true := by
  have empty : (edits = []) ↔ (!(!edits.isEmpty)) = true := by simp
  subst whole
  have done : s.running ++ s.candidate = before.running ++ s.candidate := by rw [running]
  cases is : conduct s.asked with
  | obeys =>
    simp only [conclude, step_alive alive, is, Server.grants, Server.follow, outcome_ok, if_true]
    refine iff_of_true ⟨.inl ⟨ended_running.trans done, .inl fun result mem => ?_⟩, ?_⟩
      (by simp [committed, is])
    · rw [List.eq_of_mem_replicate mem]
    · rw [clean]
      exact ended_empty rfl
  | refuses error =>
    obtain ⟨refused, no, out⟩ := outcome_error "commit" error
    simp only [conclude, step_alive alive, is, Server.follow, reply, out, no, Bool.false_eq_true,
      if_false]
    refine Iff.trans (refused_iff alive locked running clean fun result mem => ?_) ?_
    · rw [List.eq_of_mem_replicate mem]
      exact no
    · simp [committed, is]
  | garbles carried isReply =>
    cases isReply with
    | true =>
      obtain ⟨refused, no, read, out⟩ := outcome_evasion "commit"
      simp only [conclude, step_alive alive, is, Server.follow, reply, out, no, Bool.false_eq_true,
        if_false]
      cases carried with
      | true =>
        rw [unreported_iff (discard_running.trans done) ?_ no read, empty]
        · simp [committed, is]
        · rw [clean]
          exact ended_empty (discard_empty rfl)
      | false =>
        simp only [Server.act, Bool.false_eq_true, if_false]
        refine Iff.trans (refused_iff alive locked running clean fun result mem => ?_) ?_
        · rw [List.eq_of_mem_replicate mem]
          exact no
        · simp [committed, is]
    | false =>
      simp only [conclude, step_alive alive, is, Server.follow, reply, outcome]
      cases carried with
      | true =>
        rw [unreported_iff (ended_running.trans done) ?_ rfl ?_, empty]
        · simp [committed, is]
        · rw [clean]
          exact ended_empty rfl
        · rintro ⟨-, reason | reason⟩ <;> exact absurd (Option.some.inj reason) (by decide)
      | false =>
        simp only [Server.act, Bool.false_eq_true, if_false]
        refine Iff.trans (left_iff alive locked running clean fun result mem =>
          not_applied_of_error mem) ?_
        simp [committed, is]
  | stalls carried =>
    simp only [conclude, step_alive alive, is, Server.follow, reply, outcome]
    cases carried with
    | true =>
      refine iff_of_true ⟨.inl ⟨ended_running.trans done, .inr fun result mem => ?_⟩, ?_⟩
        (by simp [committed, is])
      · exact lost_of_error (.inl rfl) mem
      · rw [clean]
        exact ended_empty rfl
    | false =>
      simp only [Server.act, Bool.false_eq_true, if_false]
      refine Iff.trans (left_iff alive locked running clean fun result mem =>
        not_applied_of_error mem) ?_
      simp [committed, is]
  | drops carried =>
    simp only [conclude, step_alive alive, is, Server.follow, reply, outcome]
    cases carried with
    | true =>
      refine iff_of_true ⟨.inl ⟨ended_running.trans done, .inr fun result mem => ?_⟩, ?_⟩
        (by simp [committed, is])
      · exact lost_of_error (.inr rfl) mem
      · rw [clean]
        exact ended_empty (by simp [Server.act, Server.lose, Server.carryOut])
    | false =>
      refine iff_of_true (lost_iff ?_ clean (fun result mem => not_applied_of_error mem) ?_)
        (by simp [committed, is])
      · exact running
      · simp [Server.act, Server.lose, locked]

theorem holds_snoc (held : List Change) (edit : Change) : (held ++ [edit]).isEmpty = false := by
  cases held <;> rfl

theorem conclude_iff (alive : s.alive = true) (locked : s.locked = true)
    (whole : s.candidate ++ rest = edits) (running : s.running = before.running)
    (clean : before.candidate = []) :
    AllOrNothing edits before
        (conclude offer conduct edits.length (editAll (server offer conduct) rest index s)).1
        (conclude offer conduct edits.length (editAll (server offer conduct) rest index s)).2 ↔
      spared conduct rest s.asked (!s.candidate.isEmpty) = true := by
  induction rest generalizing s index with
  | nil =>
    rw [List.append_nil] at whole
    rw [editAll, spared, whole]
    exact commit_iff alive locked whole running clean
  | cons edit rest ih =>
    cases is : conduct s.asked with
    | obeys =>
      simp only [editAll, step_alive alive, is, Server.grants, Server.follow, outcome_ok, if_true]
      refine Iff.trans (ih alive locked ?_ running) ?_
      · rw [← whole]
        simp [Server.carryOut]
      · simp [spared, is, Server.carryOut, holds_snoc]
    | refuses error =>
      obtain ⟨refused, no, out⟩ := outcome_error "edit-config" error
      simp only [editAll, step_alive alive, is, Server.follow, reply, out, no, Bool.false_eq_true,
        if_false, conclude]
      refine Iff.trans (refused_iff alive locked running clean fun result mem =>
        not_applied_of_refusals no mem) ?_
      simp [spared, is]
    | garbles carried isReply =>
      cases isReply with
      | true =>
        obtain ⟨refused, no, read, out⟩ := outcome_evasion "edit-config"
        simp only [editAll, step_alive alive, is, Server.follow, reply, out, no, Bool.false_eq_true,
          if_false, conclude]
        cases carried with
        | true =>
          refine Iff.trans (refused_iff ?_ ?_ ?_ clean fun result mem =>
            not_applied_of_refusals no mem) ?_
          · exact alive
          · exact locked
          · exact running
          · simp [spared, is, Server.act, Server.carryOut, holds_snoc]
        | false =>
          refine Iff.trans (refused_iff ?_ ?_ ?_ clean fun result mem =>
            not_applied_of_refusals no mem) ?_
          · exact alive
          · exact locked
          · exact running
          · simp [spared, is, Server.act]
      | false =>
        simp only [editAll, step_alive alive, is, Server.follow, reply, outcome, conclude]
        refine Iff.trans (left_iff ?_ ?_ ?_ clean fun result mem => not_applied_of_error mem) ?_
        · cases carried <;> exact alive
        · cases carried <;> exact locked
        · cases carried <;> exact running
        · cases carried <;> simp [spared, is, Server.act, Server.carryOut]
    | stalls carried =>
      simp only [editAll, step_alive alive, is, Server.follow, reply, outcome, conclude]
      refine Iff.trans (left_iff ?_ ?_ ?_ clean fun result mem => not_applied_of_error mem) ?_
      · cases carried <;> exact alive
      · cases carried <;> exact locked
      · cases carried <;> exact running
      · cases carried <;> simp [spared, is, Server.act, Server.carryOut]
    | drops carried =>
      simp only [editAll, step_alive alive, is, Server.follow, reply, outcome, conclude]
      refine iff_of_true (lost_iff ?_ clean (fun result mem => not_applied_of_error mem) ?_)
        (by simp [spared, is])
      · cases carried <;> exact running
      · cases carried <;> simp [Server.act, Server.carryOut, Server.lose, locked]

theorem concluded (edits : List Change) (s : Server) :
    (ended offer conduct (underLock (server offer conduct) edits s).1,
        match (underLock (server offer conduct) edits s).2 with
        | .error exc => List.replicate edits.length exc.result
        | .ok results => results) =
      conclude offer conduct edits.length (editAll (server offer conduct) edits 0 s) := by
  unfold underLock conclude
  rcases editAll (server offer conduct) edits 0 s with ⟨s, exc | _ | ⟨index, refused⟩⟩
  · rfl
  · dsimp only
    rcases step (server offer conduct) "commit" .commit s with ⟨s, exc | committed⟩ <;> rfl
  · rfl

theorem refusals_none {n : Nat} {refused result : EditResult} (no : refused.applied = false)
    (mem : result ∈ List.replicate n refused) : result.applied = false := by
  rw [List.eq_of_mem_replicate mem]
  exact no

def transaction (conduct : Nat → Conduct) (edits : List Change) (s : Server) :
    Server × List EditResult :=
  match candidateEdits (server (.ok true) conduct) true edits
    { s with alive := true, locked := false, asked := 0 } with
  | (s, .error exc) => (s.lose, List.replicate edits.length exc.result)
  | (s, .ok results) => (s.lose, results)

theorem send_transaction {model : Bool} (known : unknownOperation model edits = none) :
    sendEditConfigs (server (.ok true) conduct) model edits s = transaction conduct edits s := by
  unfold sendEditConfigs within transaction
  rw [known]
  dsimp only [server]
  rcases candidateEdits _ true edits _ with ⟨s, exc | results⟩ <;> rfl

theorem unlocked_left (done : Bool) : (({ s with alive := true, locked := false, asked := 1 } :
    Server).act .lock done).lose.candidate = s.candidate := by
  cases done with
  | false => rfl
  | true => cases s.candidate <;> simp [Server.act, Server.carryOut, Server.lose]

theorem unlocked_running (done : Bool) : (({ s with alive := true, locked := false, asked := 1 } :
    Server).act .lock done).lose.running = s.running := by
  cases done <;> rfl

theorem granted_iff (is : conduct 0 = .obeys) (empty : s.candidate = []) :
    AllOrNothing edits s (transaction conduct edits s).1 (transaction conduct edits s).2 ↔
      spared conduct edits 1 false = true := by
  have form : transaction conduct edits s =
      conclude (.ok true) conduct edits.length (editAll (server (.ok true) conduct) edits 0
        { s with alive := true, locked := true, asked := 0 + 1 }) := by
    rw [← concluded]
    unfold transaction candidateEdits
    rw [step_alive rfl]
    simp only [is, Server.grants, empty, List.isEmpty_nil, if_true, Server.follow, outcome_ok,
      Server.carryOut, Bool.not_true, Bool.false_eq_true, if_false, ended]
    generalize underLock (server (.ok true) conduct) edits _ = under
    rcases under with ⟨s, exc | results⟩ <;> rfl
  rw [form]
  refine Iff.trans (conclude_iff rfl rfl (by simp [empty]) rfl empty) ?_
  simp [empty]

theorem denied (is : conduct 0 = .obeys) (held : s.candidate.isEmpty = false) :
    AllOrNothing edits s (transaction conduct edits s).1 (transaction conduct edits s).2 := by
  obtain ⟨refused, no, out⟩ := outcome_error "lock" []
  unfold transaction candidateEdits
  rw [step_alive rfl]
  simp only [is, Server.grants, held, Bool.false_eq_true, if_false, reply, out, no, Server.follow,
    Bool.not_true, Bool.not_false, if_true]
  exact ⟨.inr ⟨rfl, fun _ => refusals_none no⟩, rfl⟩

theorem ungranted (is : conduct 0 ≠ .obeys) :
    AllOrNothing edits s (transaction conduct edits s).1 (transaction conduct edits s).2 := by
  unfold transaction candidateEdits
  rw [step_alive rfl]
  cases first : conduct 0 with
  | obeys => exact absurd first is
  | refuses error =>
    obtain ⟨refused, no, out⟩ := outcome_error "lock" error
    simp only [Server.follow, reply, out, no, Bool.not_true, Bool.not_false, Bool.false_eq_true,
      if_false, if_true]
    exact ⟨.inr ⟨rfl, fun _ => refusals_none no⟩, rfl⟩
  | garbles done isReply =>
    cases isReply with
    | true =>
      obtain ⟨refused, no, read, out⟩ := outcome_evasion "lock"
      simp only [Server.follow, reply, out, no, Bool.not_true, Bool.not_false, Bool.false_eq_true,
        if_false, if_true]
      exact ⟨.inr ⟨unlocked_running done, fun _ => refusals_none no⟩, unlocked_left done⟩
    | false => exact ⟨.inr ⟨unlocked_running done, fun _ => refusals_none rfl⟩, unlocked_left done⟩
  | stalls done => exact ⟨.inr ⟨unlocked_running done, fun _ => refusals_none rfl⟩, unlocked_left done⟩
  | drops done => exact ⟨.inr ⟨unlocked_running done, fun _ => refusals_none rfl⟩, unlocked_left done⟩

end Transactions

section Sample

def tilt (element : String) : Change := { managedElementRef := element, operation := "merge" }

/-- The second edit is answered by something that is not read, and not carried out. -/
def garbled : Nat → Conduct
  | 2 => .garbles false false
  | _ => .obeys

end Sample

end Smo.RanNfOam.NetconfSsh.Candidates
