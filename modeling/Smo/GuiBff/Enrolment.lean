import Smo.Lib.Runs
import Smo.Lib.Table
import Smo.Shared.Str

/-! The one-time codes of one user (`gui-bff/app/db.py`, `totp.py` and `main.py`): enrolment, the second
step of a sign-in, the token grant, new recovery codes and an admin's reset, from any number of instances
at once. A read, a commit and a reading of a clock are steps of their own. -/
namespace Smo.GuiBff.Enrolment

/-- A row of `gui_user_totp`. -/
structure GuiUserTotp where
  secretEnc : String
  confirmed : Bool := false
  lastStep : Option Nat := none
  deriving DecidableEq

/-- A row of `gui_recovery_code`. -/
structure GuiRecoveryCode where
  codeHash : String
  used : Bool := false
  deriving DecidableEq

/-- A row of `gui_login_challenge`. -/
structure LoginChallenge where
  jti : String
  expiresAt : Nat
  deriving DecidableEq

/-- The ciphers and hashes, and `str.lower`; `decrypt` gives nothing for a `TotpKeyError`. -/
structure Service where
  totpKey : Bool
  decrypt : String → Option String
  hotp : String → Nat → Str
  hashRecoveryCode : Str → String
  lower : Str → Str

def stepSeconds : Nat := 30

def digits : Nat := 6

def recoveryAlphabet : Str := "abcdefghjkmnpqrstuvwxyz23456789".toList

def recoveryChars : Nat := 16

def timeStep (now : Nat) : Nat := now / stepSeconds

/-- `totp.verify`: the latest step of the window the code is valid for. -/
def verify (hotp : String → Nat → Str) (secret : String) (code : Str) (now : Nat)
    (lastStep : Option Nat) : Option Nat :=
  let code := (Str.strip code).filter (· ≠ ' ')
  let current := timeStep now
  if code.length ≠ digits ∨ code.any (fun c => c < '0' || '9' < c) then none
  else [current - 1, current, current + 1].foldl
    (fun found step =>
      if hotp secret step = code ∧ lastStep.all (· < step) then
        some (found.elim step fun other => if other < step then step else other)
      else found) none

def normaliseRecoveryCode (lower : Str → Str) (code : Str) : Str :=
  (lower (Str.strip code)).filter fun c => c ≠ '-' && c ≠ ' '

def looksLikeRecoveryCode (lower : Str → Str) (code : Str) : Bool :=
  let plain := normaliseRecoveryCode lower code
  plain.length = recoveryChars && plain.all fun c => recoveryAlphabet.contains c

inductive Purpose
  | signIn (jti : String)
  | grant
  | regenerate
  deriving DecidableEq

inductive Refusal
  | alreadyEnrolled
  | noEnrolmentInProgress
  | notEnrolled
  | invalidCode
  | challengeInvalid
  | totpKeyUnavailable
  deriving DecidableEq

def Refusal.problem : Refusal → Nat × String
  | alreadyEnrolled => (409, "TOTP_ALREADY_ENROLLED")
  | noEnrolmentInProgress => (409, "NO_ENROLMENT_IN_PROGRESS")
  | notEnrolled => (409, "NOT_ENROLLED")
  | invalidCode => (400, "INVALID_CODE")
  | challengeInvalid => (401, "CHALLENGE_INVALID")
  | totpKeyUnavailable => (503, "TOTP_KEY_UNAVAILABLE")

inductive Job
  /-- `begin_totp` before its read, and before its commit: `again` at the second attempt, `there` when
  it found a row. -/
  | beginning (secretEnc : String) (again : Bool)
  | storing (secretEnc : String) (again there : Bool)
  | begun
  /-- `totp_confirm` before its read, its check of the code, and its commit. -/
  | confirming (code : Str)
  | proving (secretEnc secret : String) (code : Str)
  | enrolling (secretEnc : String) (step : Nat)
  | enrolled
  /-- `login_totp` before it looks the challenge up. -/
  | pending (jti : String) (code : Str)
  | presenting (purpose : Purpose) (code : Str)
  | verifying (purpose : Purpose) (secret : String) (lastStep : Option Nat) (code : Str)
  | stepping (purpose : Purpose) (step : Nat)
  | spending (purpose : Purpose) (codeHash : String)
  | passed (purpose : Purpose)
  | accepted (purpose : Purpose)
  | refused (refusal : Refusal)
  | failed
  deriving DecidableEq

/-- The last five are not kept by the service: the steps, recovery codes and challenges that were
accepted, in order, and the challenges and recovery codes that were drawn. -/
structure State where
  totp : Option GuiUserTotp := none
  recoveryCodes : List GuiRecoveryCode := []
  challenges : List LoginChallenge := []
  jobs : List Job := []
  steps : List Nat := []
  spent : List String := []
  consumed : List String := []
  drawn : List String := []
  coined : List String := []

/-- A new challenge and new recovery codes are random: they were not drawn before. -/
inductive Act
  | ask (job : Job)
  | challenge (jti : String) (expiresAt now : Nat)
  | reset
  | look (i now : Nat)
  | read (i : Nat)
  | check (i now : Nat)
  | commit (i : Nat) (codes : List String)
  | finish (i now : Nat) (codes : List String)

def Job.arrives : Job → Bool
  | .beginning _ again => !again
  | .confirming _ | .pending _ _ | .presenting .grant _ | .presenting .regenerate _ => true
  | _ => false

variable (service : Service)

/-- The read of the row: by `begin_totp`, by `totp_confirm`, and for a second factor or new recovery
codes. -/
def Job.read (totp : Option GuiUserTotp) : Job → Option Job
  | .beginning secretEnc again =>
    match totp with
    | none => some (.storing secretEnc again false)
    | some row =>
      some (if row.confirmed then .refused .alreadyEnrolled else .storing secretEnc again true)
  | .confirming code =>
    match totp with
    | none => some (.refused .noEnrolmentInProgress)
    | some row =>
      if row.confirmed then some (.refused .noEnrolmentInProgress)
      else
        match service.decrypt row.secretEnc with
        | none => some (.refused .totpKeyUnavailable)
        | some secret => some (.proving row.secretEnc secret code)
  | .presenting purpose code =>
    match totp.filter (·.confirmed) with
    | none => some (.refused (if purpose = .regenerate then .notEnrolled else .invalidCode))
    | some row =>
      if service.totpKey = false then some (.refused .totpKeyUnavailable)
      else if purpose ≠ .regenerate ∧ looksLikeRecoveryCode service.lower code then
        some (.spending purpose
          (service.hashRecoveryCode (normaliseRecoveryCode service.lower code)))
      else
        match service.decrypt row.secretEnc with
        | none => some (.refused .totpKeyUnavailable)
        | some secret => some (.verifying purpose secret row.lastStep code)
  | _ => none

def Job.check (now : Nat) : Job → Option Job
  | .proving secretEnc secret code =>
    match verify service.hotp secret code now none with
    | none => some (.refused .invalidCode)
    | some step => some (.enrolling secretEnc step)
  | .verifying purpose secret lastStep code =>
    match verify service.hotp secret code now lastStep with
    | none => some (.refused .invalidCode)
    | some step => some (.stepping purpose step)
  | _ => none

namespace State

variable (s : State)

def at_ (i : Nat) (job : Job) : State := { s with jobs := s.jobs.set i job }

def unseen (codes : List String) : Bool := codes.all fun code => !s.coined.contains code

/-- `recoveryCodes` with these in the place of all. -/
def withCodes (codes : List String) : State :=
  { s with recoveryCodes := codes.map fun code => ⟨code, false⟩, coined := s.coined ++ codes }

/-- The write of `begin_totp`: an insert that may lose, or an update by primary key. -/
def store (i : Nat) (secretEnc : String) (again there : Bool) : State :=
  match there, s.totp with
  | false, none => { s.at_ i .begun with totp := some { secretEnc } }
  | false, some _ => s.at_ i (if again then .failed else .beginning secretEnc true)
  | true, none => s.at_ i .failed
  | true, some row => { s.at_ i .begun with totp := some { row with secretEnc } }

/-- `confirm_totp`. -/
def confirm (i step : Nat) (codes : List String) : State :=
  match s.totp with
  | some row =>
    if row.confirmed then s.at_ i (.refused .noEnrolmentInProgress)
    else
      { (s.at_ i .enrolled).withCodes codes with
        totp := some { row with confirmed := true, lastStep := some step }
        steps := s.steps ++ [step] }
  | none => s.at_ i (.refused .noEnrolmentInProgress)

/-- `use_totp_step`. -/
def useStep (i : Nat) (purpose : Purpose) (step : Nat) : State :=
  match s.totp with
  | some row =>
    if row.confirmed ∧ row.lastStep.all (· < step) then
      { s.at_ i (.passed purpose) with
        totp := some { row with lastStep := some step }
        steps := s.steps ++ [step] }
    else s.at_ i (.refused .invalidCode)
  | none => s.at_ i (.refused .invalidCode)

/-- `use_recovery_code`: accepted when it was one unused code. -/
def spend (i : Nat) (purpose : Purpose) (codeHash : String) : State :=
  let mine (code : GuiRecoveryCode) : Bool := code.codeHash = codeHash && !code.used
  let marked := s.recoveryCodes.map fun code => if mine code then { code with used := true } else code
  if (s.recoveryCodes.filter mine).length = 1 then
    { s.at_ i (.passed purpose) with recoveryCodes := marked, spent := s.spent ++ [codeHash] }
  else { s.at_ i (.refused .invalidCode) with recoveryCodes := marked }

/-- `consume_challenge`: a `jti` is a primary key. -/
def consume (i : Nat) (jti : String) (now : Nat) : State :=
  let mine (row : LoginChallenge) : Bool := row.jti = jti && now < row.expiresAt
  if s.challenges.any mine then
    { s.at_ i (.accepted (.signIn jti)) with
      challenges := s.challenges.filter (!mine ·), consumed := s.consumed ++ [jti] }
  else s.at_ i (.refused .challengeInvalid)

def act (a : Act) : Option State :=
  match a with
  | .ask job => if job.arrives then some { s with jobs := s.jobs ++ [job] } else none
  | .challenge jti expiresAt now =>
    if jti ∈ s.drawn then none
    else
      some { s with
        challenges := s.challenges.filter (now < ·.expiresAt) ++ [⟨jti, expiresAt⟩]
        drawn := s.drawn ++ [jti] }
  | .reset => some { s with totp := none, recoveryCodes := [], challenges := [] }
  | .look i now =>
    match s.jobs[i]? with
    | some (.pending jti code) =>
      some (s.at_ i
        (if s.challenges.any fun row => row.jti = jti && now < row.expiresAt then
          .presenting (.signIn jti) code
        else .refused .challengeInvalid))
    | _ => none
  | .read i => (s.jobs[i]?.bind (Job.read service s.totp)).map (s.at_ i)
  | .check i now => (s.jobs[i]?.bind (Job.check service now)).map (s.at_ i)
  | .commit i codes =>
    match s.jobs[i]? with
    | some (.storing secretEnc again there) => some (s.store i secretEnc again there)
    | some (.enrolling _ step) => if s.unseen codes then some (s.confirm i step codes) else none
    | some (.stepping purpose step) => some (s.useStep i purpose step)
    | some (.spending purpose codeHash) => some (s.spend i purpose codeHash)
    | _ => none
  | .finish i now codes =>
    match s.jobs[i]? with
    | some (.passed (.signIn jti)) => some (s.consume i jti now)
    | some (.passed .grant) => some (s.at_ i (.accepted .grant))
    | some (.passed .regenerate) =>
      if s.unseen codes then some ((s.at_ i (.accepted .regenerate)).withCodes codes) else none
    | _ => none

def Step (s : State) (a : Act) (s' : State) : Prop := s.act service a = some s'

/-- A begin writes over a row that was confirmed since it was read; or a confirm makes live a row that
is not the one it read, or takes a step that is not after every accepted one. -/
def lapses (a : Act) : Bool :=
  match a with
  | .commit i _ =>
    match s.jobs[i]?, s.totp with
    | some (.storing _ _ true), some row => row.confirmed
    | some (.enrolling secretEnc step), some row =>
      !row.confirmed && (row.secretEnc ≠ secretEnc || s.steps.any (step ≤ ·))
    | _, _ => false
  | _ => false

end State

end Smo.GuiBff.Enrolment
