import Smo.Lib.TokenBucket
import Smo.Lib.Table
import Mathlib.Data.Rat.Floor

/-! Rate limiting by token buckets (`shared/smo_shared/ratelimit.py`), with exact numbers: the
buckets in the `rate_bucket` table, where replicas stamp their statements, and those in the
memory of a replica. What a failing store falls back to is left out. -/
namespace Smo.RateLimit

open TokenBucket (Bucket Kept)

structure RateBucket where
  caller : String
  tokens : Rat
  refilledAt : Rat
  lastAllowed : Bool

/-- A bucket of `TokenBuckets`. -/
structure Entry where
  caller : String
  tokens : Rat
  last : Rat

def RateBucket.bucket (row : RateBucket) : Bucket Rat := ⟨row.tokens, row.refilledAt⟩

def Entry.bucket (entry : Entry) : Bucket Rat := ⟨entry.tokens, entry.last⟩

/-- A take by a caller, or a purge, with the stamp of the replica that asks for it. -/
inductive Op where
  | take (caller : String) (now : Rat)
  | purge (now : Rat)

def Op.stamp : Op → Rat
  | .take _ now => now
  | .purge now => now

structure Taken where
  caller : String
  now : Rat
  answer : Option Int

section Code

variable (rate burst : Rat)

/-- `max(1, math.ceil((1 - tokens) / rate))`. -/
def retryAfter (tokens : Rat) : Int := max 1 ⌈(1 - tokens) / rate⌉

def RateBucket.taken (now : Rat) (row : RateBucket) : RateBucket :=
  let refilled := min burst (row.tokens + max 0 (now - row.refilledAt) * rate)
  { row with
    lastAllowed := 1 ≤ refilled
    tokens := if 1 ≤ refilled then refilled - 1 else refilled
    refilledAt := max row.refilledAt now }

/-- `_take_shared`: the table, and the row that the statement returns. -/
def takeShared (rows : List RateBucket) (caller : String) (now : Rat) :
    List RateBucket × RateBucket :=
  match Table.get (·.caller) rows caller with
  | some row => (Table.modify (·.caller) rows caller (.taken rate burst now), row.taken rate burst now)
  | none =>
    let row : RateBucket :=
      { caller, tokens := if 1 ≤ burst then burst - 1 else burst, refilledAt := now
        lastAllowed := 1 ≤ burst }
    (rows ++ [row], row)

/-- `SharedTokenBuckets.take`. -/
def sharedTake (rows : List RateBucket) (caller : String) (now : Rat) :
    List RateBucket × Option Int :=
  if rate ≤ 0 then (rows, none)
  else
    let (rows, row) := takeShared rate burst rows caller now
    (rows, if row.lastAllowed then none else some (retryAfter rate row.tokens))

def RateBucket.full (now : Rat) (row : RateBucket) : Bool :=
  burst ≤ row.tokens + max 0 (now - row.refilledAt) * rate

def purge (rows : List RateBucket) (now : Rat) : List RateBucket :=
  rows.filter fun row => ¬ row.full rate burst now

/-- `_forget_idle`. -/
def forgetIdle (buckets : List Entry) (now : Rat) : List Entry :=
  buckets.filter fun entry => ¬ burst ≤ entry.tokens + (now - entry.last) * rate

def setBucket (buckets : List Entry) (entry : Entry) : List Entry :=
  match Table.get (·.caller) buckets entry.caller with
  | some _ => Table.modify (·.caller) buckets entry.caller fun old =>
      { old with tokens := entry.tokens, last := entry.last }
  | none => buckets ++ [entry]

/-- `TokenBuckets.take`; `maxTracked` is `MAX_TRACKED_CALLERS`. -/
def localTake (maxTracked : Nat) (buckets : List Entry) (caller : String) (now : Rat) :
    List Entry × Option Int :=
  if rate ≤ 0 then (buckets, none)
  else
    let entry := (Table.get (·.caller) buckets caller).getD ⟨caller, burst, now⟩
    let tokens := min burst (entry.tokens + (now - entry.last) * rate)
    let buckets :=
      if 1 ≤ tokens then setBucket buckets ⟨caller, tokens - 1, now⟩
      else setBucket buckets ⟨caller, tokens, now⟩
    (if maxTracked < buckets.length then forgetIdle rate burst buckets now else buckets,
      if 1 ≤ tokens then none else some (retryAfter rate tokens))

structure Store where
  rows : List RateBucket := []
  purged : String → Option RateBucket := fun _ => none

namespace Store

def row (s : Store) (caller : String) : Option RateBucket := Table.get (·.caller) s.rows caller

def step (s : Store) : Op → Store
  | .take caller now => { s with rows := (sharedTake rate burst s.rows caller now).1 }
  | .purge now => {
      rows := RateLimit.purge rate burst s.rows now
      purged := fun caller =>
        ((s.row caller).filter (·.full rate burst now)).or (s.purged caller) }

def after (s : Store) (ops : List Op) : Store := ops.foldl (step rate burst) s

def history (s : Store) : List Op → List Taken
  | [] => []
  | .take caller now :: rest =>
    ⟨caller, now, (sharedTake rate burst s.rows caller now).2⟩ ::
      history (s.step rate burst (.take caller now)) rest
  | .purge now :: rest => history (s.step rate burst (.purge now)) rest

/-- A take that makes a purged bucket again does so when that would have been full. -/
def restartsFull (s : Store) : Op → Bool
  | .take caller now => (s.row caller).isSome ∨ (s.purged caller).all fun row =>
      row.refilledAt ≤ now ∧ burst ≤ row.tokens + (now - row.refilledAt) * rate
  | .purge _ => true

def alwaysRestartsFull (s : Store) : List Op → Bool
  | [] => true
  | op :: rest => s.restartsFull rate burst op && alwaysRestartsFull (s.step rate burst op) rest

end Store

def localHistory (maxTracked : Nat) (buckets : List Entry) : List Op → List Taken
  | [] => []
  | .take caller now :: rest =>
    ⟨caller, now, (localTake rate burst maxTracked buckets caller now).2⟩ ::
      localHistory maxTracked (localTake rate burst maxTracked buckets caller now).1 rest
  | .purge _ :: rest => localHistory maxTracked buckets rest

def localAfter (maxTracked : Nat) (buckets : List Entry) (ops : List Op) : List Entry :=
  ops.foldl (fun buckets op => match op with
    | .take caller now => (localTake rate burst maxTracked buckets caller now).1
    | .purge _ => buckets) buckets

end Code

def stamps (caller : String) (ops : List Op) : List Rat :=
  ops.filterMap fun
    | .take other now => if other = caller then some now else none
    | .purge _ => none

def allowed (caller : String) (history : List Taken) : Nat :=
  (history.filter fun taken => taken.caller = caller ∧ taken.answer = none).length

end Smo.RateLimit
