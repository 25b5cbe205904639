import Smo.Shared.Str
import Smo.Lib.Table
import Smo.Lib.Runs

/-! O1 action mediation (`mediate_action` of `dme/app/main.py`): any number of `POST /actions`
requests, each with the job request that it sends to RAN NF OAM through the gateway. What the
gateway and RAN NF OAM do with it is not DME's to decide. -/
namespace Smo.Dme.Actions

open Table (get modify mem_set_cases set_cases append_cases)
open Runs (Run)

structure Change where
  managedElementRef : Option Str
  className : Option Str := none

structure ActionRequest where
  requestedBy : Str
  changes : List Change
  actionId : Option Nat := none

structure DmeActionRecord where
  actionId : Nat
  requestedBy : Str
  managedElementRef : Str
  className : Option Str
  changes : List Change
  forwardedJobId : Option Nat := none
  status : Str

def forwarded : Str := "FORWARDED".toList

def rejected : Str := "REJECTED".toList

/-- The `jobId` of an answer: none, a UUID, or a text that is not one. -/
inductive JobId
  | absent
  | uuid (id : Nat)
  | malformed

/-- The body of an answer as `resp.json()` reads it; `other` is JSON that is no object. -/
inductive Body
  | notJson
  | null
  | other
  | object (jobId : JobId) (status : Option Str)

structure Reply where
  status : Nat
  body : Body

/-- The status and the job id that an answer puts in the record; none if the route raises before. -/
def Reply.settles (reply : Reply) : Option (Str × Option Nat) :=
  match reply.body with
  | .notJson | .null => some (rejected, none)
  | .other => if 400 ≤ reply.status then some (rejected, none) else none
  | .object jobId status =>
    if 400 ≤ reply.status then some (rejected, none)
    else
      match jobId, status with
      | .absent, some status => some (status, none)
      | .uuid id, some status => some (status, some id)
      | _, _ => none

def Reply.refuses (reply : Reply) : Bool := reply.settles.any (·.1 = rejected)

/-- What the caller of `POST /actions` gets. -/
inductive Outcome
  | unprocessable
  | ignored (originalStatus : Str) (forwardedJobId : Option Nat)
  | conflict
  | upstreamFailed
  | relayed (status : Nat)
  | mediated (status : Str) (forwardedJobId : Option Nat)
  | raised

def Reply.outcome (reply : Reply) : Outcome :=
  match reply.body with
  | .notJson | .null => .upstreamFailed
  | .other => if 500 ≤ reply.status then .upstreamFailed else .raised
  | .object _ _ =>
    if 500 ≤ reply.status then .upstreamFailed
    else if 400 ≤ reply.status then .relayed reply.status
    else
      match reply.settles with
      | some (status, job) => .mediated status job
      | none => .raised

inductive Phase
  | arrived
  | loaded
  | recorded
  | sent (attempt : Nat)
  | answered (reply : Reply)
  | ended (outcome : Outcome)

/-- A request, with what became of the job request that it sends: whether an attempt is still under
way, whether RAN NF OAM got it and created a job, and the answer that settled the record. -/
structure Mediation where
  body : ActionRequest
  actionId : Nat
  phase : Phase := .arrived
  owns : Bool := false
  underWay : Bool := false
  reached : Bool := false
  created : Bool := false
  reply : Option Reply := none

structure State where
  records : List DmeActionRecord := []
  requests : List Mediation := []

/-- `arrive` carries the id that is drawn where the caller gives none. `reaches` is the gateway's
doing, `creates` RAN NF OAM's, `answers` either's; `fails` is a lost connection or the timeout. -/
inductive Act
  | arrive (body : ActionRequest) (drawn : Nat)
  | load (i : Nat)
  | insert (i : Nat)
  | send (i : Nat)
  | reaches (i : Nat)
  | creates (i : Nat)
  | answers (i : Nat) (reply : Reply)
  | fails (i : Nat)
  | settle (i : Nat)
  | dies (i : Nat)

def Act.number : Act → Option Nat
  | .arrive _ _ => none
  | .load i | .insert i | .send i | .reaches i | .creates i | .answers i _ | .fails i | .settle i
  | .dies i => some i

def Mediation.record (request : Mediation) : DmeActionRecord where
  actionId := request.actionId
  requestedBy := request.body.requestedBy
  managedElementRef := (request.body.changes.head?.bind (·.managedElementRef)).getD []
  className := request.body.changes.head?.bind (·.className)
  changes := request.body.changes
  status := forwarded

/-- The records and the request after its next step; none if it is not at that step. -/
def move (records : List DmeActionRecord) (request : Mediation) :
    Act → Option (List DmeActionRecord × Mediation)
  | .load _ =>
    match request.phase with
    | .arrived =>
      if request.body.changes = [] then
        some (records, { request with phase := .ended .unprocessable })
      else
        match request.body.actionId.bind (get DmeActionRecord.actionId records) with
        | some existing =>
          some (records,
            { request with phase := .ended (.ignored existing.status existing.forwardedJobId) })
        | none => some (records, { request with phase := .loaded })
    | _ => none
  | .insert _ =>
    match request.phase with
    | .loaded =>
      if (get DmeActionRecord.actionId records request.actionId).isSome then
        some (records, { request with phase := .ended .conflict })
      else some (records ++ [request.record], { request with phase := .recorded, owns := true })
    | _ => none
  | .send _ =>
    match request.phase with
    | .recorded => some (records, { request with phase := .sent 1, underWay := true })
    | _ => none
  | .reaches _ =>
    if request.underWay ∧ request.reached = false then
      some (records, { request with reached := true })
    else none
  | .creates _ =>
    if request.reached ∧ request.created = false then
      some (records, { request with created := true })
    else none
  | .answers _ reply =>
    match request.phase with
    | .sent attempt =>
      if reply.status = 401 then
        -- Only the gateway answers so, instead of forwarding; the client tries once more.
        if request.reached then none
        else if attempt = 1 then some (records, { request with phase := .sent 2 })
        else some (records,
          { request with phase := .answered reply, underWay := false, reply := some reply })
      else some (records,
        { request with phase := .answered reply, underWay := false, reply := some reply })
    | _ => none
  | .fails _ =>
    match request.phase with
    | .sent _ => some (records, { request with phase := .ended .raised })
    | _ => none
  | .settle _ =>
    match request.phase with
    | .answered reply =>
      match reply.settles with
      | none => some (records, { request with phase := .ended reply.outcome })
      | some (status, job) =>
        some (modify DmeActionRecord.actionId records request.actionId fun record =>
            { record with status, forwardedJobId := job.or record.forwardedJobId },
          { request with phase := .ended reply.outcome })
    | _ => none
  | .dies _ =>
    match request.phase with
    | .ended _ => none
    | _ => some (records, { request with phase := .ended .raised })
  | .arrive _ _ => none

def act (s : State) (label : Act) : Option State :=
  match label with
  | .arrive body drawn =>
    some { s with requests := s.requests ++ [{ body, actionId := body.actionId.getD drawn }] }
  | _ => do
    let i ← label.number
    let request ← s.requests[i]?
    let (records, next) ← move s.records request label
    some { records, requests := s.requests.set i next }

def Step (s : State) (label : Act) (s' : State) : Prop := act s label = some s'

/-- At most one job request reaches RAN NF OAM for an action, and a rejected action has no job. -/
structure Faithful (s : State) : Prop where
  once : ∀ (i j : Nat) (a b : Mediation), s.requests[i]? = some a → s.requests[j]? = some b →
    a.actionId = b.actionId → a.reached → b.reached → i = j
  clean : ∀ record ∈ s.records, record.status = rejected → ∀ request ∈ s.requests,
    request.actionId = record.actionId → request.created = false

/-- No answer that DME takes for a refusal is given to a request for which RAN NF OAM created a
job, or creates one later. -/
def Honest (s : State) : Act → Prop
  | .creates i => ∀ request ∈ s.requests[i]?, ∀ reply ∈ request.reply, reply.refuses = false
  | .answers i reply => ∀ request ∈ s.requests[i]?, reply.refuses = true → request.created = false
  | _ => True

section Proof

variable {s s' : State} {label : Act} {i : Nat}

theorem act_number (taken : Step s label s') (of : label.number = some i) :
    ∃ request records next, s.requests[i]? = some request ∧
      move s.records request label = some (records, next) ∧
      s' = { records, requests := s.requests.set i next } := by
  unfold Step act at taken
  cases label <;> cases of
  all_goals
    simp only [Act.number, Option.bind_eq_bind, Option.bind_some, Option.bind_eq_some_iff] at taken
    obtain ⟨request, found, ⟨records, next⟩, moved, after⟩ := taken
    exact ⟨request, records, next, found, moved, (Option.some.inj after).symm⟩

structure Mediation.Ok (request : Mediation) : Prop where
  before : request.phase = .arrived ∨ request.phase = .loaded →
    request.owns = false ∧ request.reply = none
  recorded : request.phase = .recorded → request.owns ∧ request.reply = none
  sent : ∀ attempt, request.phase = .sent attempt → request.owns ∧ request.reply = none
  answered : ∀ reply, request.phase = .answered reply → request.owns ∧ request.reply = some reply
  underWay : request.underWay → request.owns
  reached : request.reached → request.owns
  created : request.created → request.reached
  honest : request.created → ∀ reply ∈ request.reply, reply.refuses = false

variable {request next : Mediation} {records records' : List DmeActionRecord}

theorem Mediation.Ok.ended (ok : request.Ok) (outcome : Outcome) :
    ({ request with phase := .ended outcome } : Mediation).Ok where
  before is := by simp at is
  recorded is := by cases is
  sent _ is := by cases is
  answered _ is := by cases is
  underWay := ok.underWay
  reached := ok.reached
  created := ok.created
  honest := ok.honest

theorem move_ok (ok : request.Ok) (honest : Honest s label) (found : s.requests[i]? = some request)
    (of : label.number = some i) (moved : move records request label = some (records', next)) :
    next.Ok := by
  cases label <;> cases of
  case load =>
    simp only [move] at moved
    split at moved
    · next is =>
      split_ifs at moved
      · cases moved
        exact ok.ended _
      · split at moved
        · cases moved
          exact ok.ended _
        · cases moved
          exact ⟨fun _ => ok.before (.inl is), by simp, by simp, by simp, ok.underWay, ok.reached,
            ok.created, ok.honest⟩
    · cases moved
  case insert =>
    simp only [move] at moved
    split at moved
    · next is =>
      split_ifs at moved
      · cases moved
        exact ok.ended _
      · cases moved
        obtain ⟨_, unanswered⟩ := ok.before (.inr is)
        exact ⟨by simp, fun _ => ⟨rfl, unanswered⟩, by simp, by simp, fun _ => rfl, fun _ => rfl,
          ok.created, ok.honest⟩
    · cases moved
  case send =>
    simp only [move] at moved
    split at moved <;> cases moved
    next is =>
      have own := ok.recorded is
      exact ⟨by simp, by simp, fun _ _ => own, by simp, fun _ => own.1, ok.reached, ok.created,
        ok.honest⟩
  case reaches =>
    simp only [move, Option.ite_none_right_eq_some] at moved
    obtain ⟨⟨wire, -⟩, ⟨⟩⟩ := moved
    exact ⟨ok.before, ok.recorded, ok.sent, ok.answered, ok.underWay, fun _ => ok.underWay wire,
      fun _ => rfl, ok.honest⟩
  case creates =>
    simp only [move, Option.ite_none_right_eq_some] at moved
    obtain ⟨⟨there, -⟩, ⟨⟩⟩ := moved
    have fair := honest request found
    exact ⟨ok.before, ok.recorded, ok.sent, ok.answered, ok.underWay, ok.reached, fun _ => there,
      fun _ => fair⟩
  case answers reply =>
    have fair : request.created = true → reply.refuses = false := by
      intro made
      by_contra refuses
      have never := honest request found (by simpa using refuses)
      rw [never] at made
      cases made
    simp only [move] at moved
    split at moved
    · next attempt is =>
      have own := (ok.sent attempt is).1
      have settled : Mediation.Ok { request with
          phase := .answered reply, underWay := false, reply := some reply } := by
        refine ⟨by simp, by simp, by simp, fun other same => ?_, by simp, fun _ => own, ok.created, ?_⟩
        · cases same
          exact ⟨own, rfl⟩
        · rintro made _ ⟨⟩
          exact fair made
      split_ifs at moved
      · cases moved
        exact ⟨by simp, by simp, fun _ _ => ok.sent attempt is, by simp, ok.underWay, ok.reached,
          ok.created, ok.honest⟩
      · cases moved
        exact settled
      · cases moved
        exact settled
    · cases moved
  case fails =>
    simp only [move] at moved
    split at moved <;> cases moved
    exact ok.ended _
  case settle =>
    simp only [move] at moved
    split at moved
    · split at moved <;> cases moved <;> exact ok.ended _
    · cases moved
  case dies =>
    simp only [move] at moved
    split at moved <;> cases moved
    exact ok.ended _

theorem move_records (ok : request.Ok) (moved : move records request label = some (records', next))
    : (records' = records ∧ next.owns = request.owns) ∨
    (get DmeActionRecord.actionId records request.actionId = none ∧
      records' = records ++ [request.record] ∧ next.owns = true) ∨
    (∃ reply status job, request.owns = true ∧ next.owns = true ∧ next.reply = some reply ∧
      reply.settles = some (status, job) ∧
      records' = modify DmeActionRecord.actionId records request.actionId fun record =>
        { record with status, forwardedJobId := job.or record.forwardedJobId }) := by
  cases label with
  | arrive => cases moved
  | load =>
    simp only [move] at moved
    split at moved
    · split_ifs at moved
      · cases moved
        exact .inl ⟨rfl, rfl⟩
      · split at moved <;> cases moved <;> exact .inl ⟨rfl, rfl⟩
    · cases moved
  | insert =>
    simp only [move] at moved
    split at moved
    · split_ifs at moved with there
      · cases moved
        exact .inl ⟨rfl, rfl⟩
      · cases moved
        exact .inr (.inl ⟨by simpa using there, rfl, rfl⟩)
    · cases moved
  | send | fails | dies =>
    simp only [move] at moved
    split at moved <;> cases moved
    exact .inl ⟨rfl, rfl⟩
  | reaches | creates =>
    simp only [move, Option.ite_none_right_eq_some] at moved
    obtain ⟨-, ⟨⟩⟩ := moved
    exact .inl ⟨rfl, rfl⟩
  | answers =>
    simp only [move] at moved
    split at moved
    · split_ifs at moved <;> cases moved <;> exact .inl ⟨rfl, rfl⟩
    · cases moved
  | settle =>
    simp only [move] at moved
    split at moved
    · next reply is =>
      obtain ⟨owns, settled⟩ := ok.answered reply is
      split at moved
      · cases moved
        exact .inl ⟨rfl, rfl⟩
      · next status job settles =>
        cases moved
        exact .inr (.inr ⟨reply, status, job, owns, owns, settled, settles, rfl⟩)
    · cases moved

theorem move_kept (ok : request.Ok) (moved : move records request label = some (records', next)) :
    next.actionId = request.actionId ∧
      ∀ reply, request.reply = some reply → next.reply = some reply := by
  cases label with
  | arrive => cases moved
  | load =>
    simp only [move] at moved
    split at moved
    · split_ifs at moved
      · cases moved
        exact ⟨rfl, fun _ => id⟩
      · split at moved <;> cases moved <;> exact ⟨rfl, fun _ => id⟩
    · cases moved
  | insert =>
    simp only [move] at moved
    split at moved
    · split_ifs at moved <;> cases moved <;> exact ⟨rfl, fun _ => id⟩
    · cases moved
  | send | fails | dies =>
    simp only [move] at moved
    split at moved <;> cases moved
    exact ⟨rfl, fun _ => id⟩
  | reaches | creates =>
    simp only [move, Option.ite_none_right_eq_some] at moved
    obtain ⟨-, ⟨⟩⟩ := moved
    exact ⟨rfl, fun _ => id⟩
  | answers =>
    simp only [move] at moved
    split at moved
    · next attempt is =>
      have silent := (ok.sent attempt is).2
      split_ifs at moved <;> cases moved
      all_goals
        refine ⟨rfl, fun reply had => ?_⟩
        rw [silent] at had
        cases had
    · cases moved
  | settle =>
    simp only [move] at moved
    split at moved
    · split at moved <;> cases moved <;> exact ⟨rfl, fun _ => id⟩
    · cases moved

/-- Every record has one request that committed it, and one that is rejected was refused. -/
structure Sound (s : State) : Prop where
  requests : ∀ request ∈ s.requests, request.Ok
  once : ∀ (i j : Nat) (a b : Mediation), s.requests[i]? = some a → s.requests[j]? = some b →
    a.actionId = b.actionId → a.owns → b.owns → i = j
  stored : ∀ request ∈ s.requests, request.owns →
    (get DmeActionRecord.actionId s.records request.actionId).isSome
  refused : ∀ record ∈ s.records, record.status = rejected →
    ∃ request ∈ s.requests, request.owns ∧ request.actionId = record.actionId ∧
      ∃ reply ∈ request.reply, reply.refuses = true

theorem get_settled {id key : Nat} {status : Str} {job : Option Nat} :
    (get DmeActionRecord.actionId (modify DmeActionRecord.actionId records id fun record =>
      { record with status, forwardedJobId := job.or record.forwardedJobId }) key).isSome =
      (get DmeActionRecord.actionId records key).isSome := by
  rw [Table.get_modify (fun record : DmeActionRecord =>
    { record with status, forwardedJobId := job.or record.forwardedJobId }) fun _ => rfl]
  split
  · rw [Option.isSome_map]
  · rfl

theorem Sound.start : Sound {} where
  requests _ mem := absurd mem List.not_mem_nil
  once i _ _ _ first := absurd first (by simp)
  stored _ mem := absurd mem List.not_mem_nil
  refused _ mem := absurd mem List.not_mem_nil

theorem Sound.arrive (sound : Sound s) {body : ActionRequest} {actionId : Nat} :
    Sound { s with requests := s.requests ++ [{ body, actionId }] } where
  requests request mem := by
    rcases List.mem_append.mp mem with old | new
    · exact sound.requests request old
    · cases List.mem_singleton.mp new
      constructor <;> simp
  once i j a b first second same aOwns bOwns := by
    rcases append_cases first with ⟨-, rfl⟩ | first
    · cases aOwns
    · rcases append_cases second with ⟨-, rfl⟩ | second
      · cases bOwns
      · exact sound.once i j a b first second same aOwns bOwns
  stored request mem owns := by
    rcases List.mem_append.mp mem with old | new
    · exact sound.stored request old owns
    · cases List.mem_singleton.mp new
      cases owns
  refused record mem bad := by
    obtain ⟨request, mem, refused⟩ := sound.refused record mem bad
    exact ⟨request, List.mem_append_left _ mem, refused⟩

theorem Sound.piece (sound : Sound s) (found : s.requests[i]? = some request) (ok' : next.Ok)
    (moved : move s.records request label = some (records, next)) :
    Sound { records, requests := s.requests.set i next } := by
  have here : i < s.requests.length := (List.getElem?_eq_some_iff.mp found).1
  have mem := List.mem_of_getElem? found
  have ok := sound.requests request mem
  obtain ⟨sameId, kept⟩ := move_kept ok moved
  have mine : (s.requests.set i next)[i]? = some next := List.getElem?_set_self here
  have change := move_records ok moved
  have stillOwns : request.owns = true → next.owns = true := by
    intro owns
    rcases change with ⟨-, same⟩ | ⟨-, -, owns'⟩ | ⟨_, _, _, -, owns', -⟩
    · exact same ▸ owns
    · exact owns'
    · exact owns'
  -- A request that comes to own its record finds none with its id, so no other request owns it.
  have alone : next.owns = true → ∀ j other, j ≠ i → s.requests[j]? = some other →
      other.actionId = request.actionId → other.owns = false := by
    intro owns j other differs at_ same
    by_contra owns'
    have owns' : other.owns = true := by simpa using owns'
    have both : request.owns = true → False := fun own =>
      differs (sound.once j i other request at_ found same owns' own)
    rcases change with ⟨-, was⟩ | ⟨absent, -⟩ | ⟨_, _, _, own, -⟩
    · exact both (was ▸ owns)
    · have there := sound.stored other (List.mem_of_getElem? at_) owns'
      rw [same, absent] at there
      cases there
    · exact both own
  have has : ∀ id, (get DmeActionRecord.actionId s.records id).isSome →
      (get DmeActionRecord.actionId records id).isSome := by
    intro id there
    rcases change with ⟨rfl, -⟩ | ⟨absent, rfl, -⟩ | ⟨_, _, _, -, -, -, -, rfl⟩
    · exact there
    · rw [Table.get_append]
      simp [there]
    · rw [get_settled]
      exact there
  have still : ∀ record : DmeActionRecord, (∃ owner ∈ s.requests, owner.owns ∧
      owner.actionId = record.actionId ∧ ∃ reply ∈ owner.reply, reply.refuses = true) →
      ∃ owner ∈ s.requests.set i next, owner.owns ∧ owner.actionId = record.actionId ∧
        ∃ reply ∈ owner.reply, reply.refuses = true := by
    rintro record ⟨owner, mem, owns, its, reply, answered, refuses⟩
    obtain ⟨j, at_⟩ := List.mem_iff_getElem?.mp mem
    by_cases same : j = i
    · subst same
      cases found.symm.trans at_
      exact ⟨next, List.mem_of_getElem? mine, stillOwns owns, sameId.trans its, reply,
        kept reply answered, refuses⟩
    · have other : (s.requests.set i next)[j]? = some owner := by
        rw [List.getElem?_set_ne (fun is => same is.symm), at_]
      exact ⟨owner, List.mem_of_getElem? other, owns, its, reply, answered, refuses⟩
  constructor
  · intro other mem
    rcases mem_set_cases mem with rfl | ⟨j, -, at_⟩
    · exact ok'
    · exact sound.requests other (List.mem_of_getElem? at_)
  · intro j k a b first second same aOwns bOwns
    rcases set_cases first with ⟨rfl, rfl⟩ | ⟨differs, was⟩
    · rcases set_cases second with ⟨rfl, rfl⟩ | ⟨differs, was⟩
      · rfl
      · rw [alone aOwns k b differs was (same.symm.trans sameId)] at bOwns
        cases bOwns
    · rcases set_cases second with ⟨rfl, rfl⟩ | ⟨-, was'⟩
      · rw [alone bOwns j a differs was (same.trans sameId)] at aOwns
        cases aOwns
      · exact sound.once j k a b was was' same aOwns bOwns
  · intro other there owns
    rcases mem_set_cases there with rfl | ⟨j, -, at_⟩
    · rw [sameId]
      rcases change with ⟨-, was⟩ | ⟨-, rfl, -⟩ | ⟨_, _, _, own, -⟩
      · exact has _ (sound.stored request mem (was ▸ owns))
      · rw [Table.get_append, Option.isSome_or]
        simp [Table.get, Mediation.record]
      · exact has _ (sound.stored request mem own)
    · exact has _ (sound.stored other (List.mem_of_getElem? at_) owns)
  · intro record there bad
    rcases change with ⟨rfl, -⟩ | ⟨-, rfl, -⟩ | ⟨reply, status, job, -, owns, answered, settles, rfl⟩
    · exact still record (sound.refused record there bad)
    · rcases List.mem_append.mp there with old | new
      · exact still record (sound.refused record old bad)
      · cases List.mem_singleton.mp new
        exact absurd (show forwarded = rejected from bad) (by decide)
    · obtain ⟨was, old, rfl⟩ := List.mem_map.mp there
      split at bad
      · next own =>
        refine ⟨next, List.mem_of_getElem? mine, owns, ?_, reply, answered, ?_⟩
        · rw [if_pos own, sameId]
          exact own.symm
        · simp only at bad
          simp [Reply.refuses, settles, bad]
      · next other =>
        rw [if_neg other]
        exact still was (sound.refused was old bad)

theorem Sound.step (sound : Sound s) (honest : Honest s label) (taken : Step s label s') :
    Sound s' := by
  rcases Option.eq_none_or_eq_some label.number with isNone | ⟨i, of⟩
  · cases label with
    | arrive body drawn =>
      cases taken
      exact sound.arrive
    | _ => cases isNone
  · obtain ⟨request, records, next, found, moved, rfl⟩ := act_number taken of
    exact sound.piece found (move_ok (sound.requests request (List.mem_of_getElem? found)) honest
      found of moved) moved

theorem Sound.faithful (sound : Sound s) : Faithful s where
  once i j a b first second same aReached bReached := by
    have aOwns := (sound.requests a (List.mem_of_getElem? first)).reached aReached
    have bOwns := (sound.requests b (List.mem_of_getElem? second)).reached bReached
    exact sound.once i j a b first second same aOwns bOwns
  clean record mem bad request mem' its := by
    by_contra made
    have made : request.created = true := by simpa using made
    obtain ⟨owner, ownerMem, owns, ownerIts, reply, answered, refuses⟩ := sound.refused record mem bad
    have ok := sound.requests request mem'
    obtain ⟨i, first⟩ := List.mem_iff_getElem?.mp ownerMem
    obtain ⟨j, second⟩ := List.mem_iff_getElem?.mp mem'
    obtain rfl := sound.once i j owner request first second (ownerIts.trans its.symm) owns
      (ok.reached (ok.created made))
    cases first.symm.trans second
    rw [ok.honest made reply answered] at refuses
    cases refuses

end Proof

instance (s : State) : (label : Act) → Decidable (Honest s label)
  | .creates i => inferInstanceAs (Decidable (∀ request ∈ s.requests[i]?, _))
  | .answers i _ => inferInstanceAs (Decidable (∀ request ∈ s.requests[i]?, _))
  | .arrive _ _ | .load _ | .insert _ | .send _ | .reaches _ | .fails _ | .settle _ | .dies _ =>
    isTrue trivial

/-- In every run whose answers are honest an action is requested at most once, and a rejected one
has no job. -/
theorem actions_faithful {trace : List (Runs.Step State Act)} {s : State} (run : Run Step {} trace s)
    (honest : ∀ t ∈ trace, Honest t.before t.label) : Faithful s := by
  have sound := run.invariant_of_guarded Sound Honest Sound.start (fun _ _ _ => Sound.step) honest
  exact sound.faithful

def tilt : ActionRequest where
  requestedBy := "rapp-1".toList
  changes := [⟨some "cell-7".toList, none⟩]
  actionId := some 1

def answered (reply : Reply) : List Act :=
  [.arrive tilt 0, .load 0, .insert 0, .send 0, .reaches 0, .creates 0, .answers 0 reply, .settle 0,
   .arrive tilt 2, .load 1]

def accepted : Reply := ⟨202, .object (.uuid 9) (some "PROCESSING".toList)⟩

theorem accepted_faithful : Faithful ((answered accepted).foldl (Runs.nextOf act) {}) :=
  actions_faithful (Runs.run_enabled (by decide)) (by decide)

def timedOut : Reply := ⟨504, .object .absent (some "504".toList)⟩

theorem timed_out_rejected : ¬ ∀ (trace : List (Runs.Step State Act)) (s : State),
    Run Step {} trace s → Faithful s := by
  intro faithful
  have clean := (faithful _ _ (@Runs.run_enabled _ _ ({} : State) act (answered timedOut)
    (by decide))).clean
  have made : ∃ record ∈ ((answered timedOut).foldl (Runs.nextOf act) {}).records,
      record.status = rejected ∧
      ∃ request ∈ ((answered timedOut).foldl (Runs.nextOf act) {}).requests,
        request.actionId = record.actionId ∧ request.created = true := by decide
  obtain ⟨record, mem, bad, request, mem', its, created⟩ := made
  rw [clean record mem bad request mem' its] at created
  cases created

end Smo.Dme.Actions
