import Smo.GuiBff.Enrolment

/-! What holds of a user's one-time codes after a run: what was accepted was accepted once, and the
secret in use is one that was proved. -/
namespace Smo.GuiBff.Enrolment

section Steps

variable {service : Service} {s s' : State} {a : Act}

/-- What a step that does not lapse makes of the row of the secret and of the accepted steps. -/
inductive Enrols (s : State) (a : Act) (s' : State) : Prop
  | same (totp : s'.totp = s.totp) (steps : s'.steps = s.steps)
  | reset (is : a = .reset) (totp : s'.totp = none) (steps : s'.steps = s.steps)
  | stored (row : GuiUserTotp) (open_ : ∀ old, s.totp = some old → old.confirmed = false)
      (pending : row.confirmed = false) (totp : s'.totp = some row) (steps : s'.steps = s.steps)
  | confirmed (row : GuiUserTotp) (step : Nat) (found : s.totp = some row)
      (pending : row.confirmed = false) (later : ∀ old ∈ s.steps, old < step)
      (totp : s'.totp = some { row with confirmed := true, lastStep := some step })
      (steps : s'.steps = s.steps ++ [step])
  | used (row : GuiUserTotp) (step : Nat) (found : s.totp = some row)
      (live : row.confirmed = true) (later : ∀ last, row.lastStep = some last → last < step)
      (totp : s'.totp = some { row with lastStep := some step })
      (steps : s'.steps = s.steps ++ [step])

inductive Spends (s s' : State) : Prop
  | same (codes : s'.recoveryCodes = s.recoveryCodes) (spent : s'.spent = s.spent)
      (coined : s'.coined = s.coined)
  | reset (codes : s'.recoveryCodes = []) (spent : s'.spent = s.spent) (coined : s'.coined = s.coined)
  | replaced (codes : List String) (unseen : s.unseen codes = true)
      (is : s'.recoveryCodes = codes.map fun code => ⟨code, false⟩) (spent : s'.spent = s.spent)
      (coined : s'.coined = s.coined ++ codes)
  | marked (codeHash : String)
      (codes : s'.recoveryCodes = s.recoveryCodes.map fun code =>
        if code.codeHash = codeHash && !code.used then { code with used := true } else code)
      (spent : s'.spent = s.spent ∨
        (s'.spent = s.spent ++ [codeHash] ∧ ∃ code ∈ s.recoveryCodes, code.codeHash = codeHash ∧
          code.used = false))
      (coined : s'.coined = s.coined)

inductive Consumes (s s' : State) : Prop
  | same (challenges : s'.challenges ⊆ s.challenges) (consumed : s'.consumed = s.consumed)
      (drawn : s'.drawn = s.drawn)
  | drawn (jti : String) (expiresAt : Nat) (unseen : jti ∉ s.drawn)
      (challenges : s'.challenges ⊆ s.challenges ++ [⟨jti, expiresAt⟩])
      (consumed : s'.consumed = s.consumed) (drawn : s'.drawn = s.drawn ++ [jti])
  | consumed (row : LoginChallenge) (now : Nat) (mem : row ∈ s.challenges)
      (live : now < row.expiresAt)
      (challenges : s'.challenges = s.challenges.filter fun other =>
        !(other.jti = row.jti && now < other.expiresAt))
      (consumed : s'.consumed = s.consumed ++ [row.jti]) (drawn : s'.drawn = s.drawn)

/-- A code that is to be checked, or that a confirm has checked, is for the secret of the row. -/
def JobSound (service : Service) : Job → Prop
  | .proving secretEnc secret _ => service.decrypt secretEnc = some secret
  | .enrolling secretEnc step => ∃ secret code now, service.decrypt secretEnc = some secret ∧
      verify service.hotp secret code now none = some step
  | _ => True

structure Facts (service : Service) (s : State) (a : Act) (s' : State) : Prop where
  totp : Enrols s a s'
  codes : Spends s s'
  challenges : Consumes s s'
  jobs : ∀ (k : Nat) job, s'.jobs[k]? = some job → s.jobs[k]? = some job ∨ JobSound service job

variable {i now step : Nat} {job next : Job} {secretEnc : String} {codes : List String}
  {purpose : Purpose}

theorem jobs_set {k : Nat} (sound : JobSound service job)
    (there : (s.jobs.set i job)[k]? = some next) : s.jobs[k]? = some next ∨ JobSound service next :=
  Table.set_holds (P := fun _ => JobSound service) sound there

theorem Facts.moves (sound : JobSound service job) : Facts service s a (s.at_ i job) where
  totp := .same rfl rfl
  codes := .same rfl rfl rfl
  challenges := .same (List.Subset.refl _) rfl rfl
  jobs _ _ := jobs_set sound

theorem read_sound {totp : Option GuiUserTotp} (is : job.read service totp = some next) :
    JobSound service next := by
  cases job with
  | beginning secretEnc again =>
    simp only [Job.read] at is
    split at is
    · cases is
      exact trivial
    · split at is <;> cases is <;> exact trivial
  | confirming code =>
    simp only [Job.read] at is
    split at is
    · cases is
      exact trivial
    · split at is
      · cases is
        exact trivial
      · split at is
        · cases is
          exact trivial
        · rename_i decrypts
          cases is
          exact decrypts
  | presenting purpose code =>
    simp only [Job.read] at is
    split at is
    · cases is
      exact trivial
    · split at is
      · cases is
        exact trivial
      · split at is
        · cases is
          exact trivial
        · split at is <;> cases is <;> exact trivial
  | _ => cases is

theorem check_sound (sound : JobSound service job) (is : job.check service now = some next) :
    JobSound service next := by
  cases job with
  | proving secretEnc secret code =>
    simp only [Job.check] at is
    split at is
    · cases is
      exact trivial
    · rename_i step valid
      cases is
      exact ⟨secret, code, now, sound, valid⟩
  | verifying purpose secret lastStep code =>
    simp only [Job.check] at is
    split at is <;> cases is <;> exact trivial
  | _ => cases is

theorem store_facts {again there : Bool}
    (found : s.jobs[i]? = some (.storing secretEnc again there))
    (inTime : s.lapses (.commit i codes) = false) :
    Facts service s (.commit i codes) (s.store i secretEnc again there) := by
  simp only [State.lapses, found] at inTime
  unfold State.store
  split
  · rename_i none_
    exact ⟨.stored _ (by simp [none_]) rfl rfl rfl, .same rfl rfl rfl,
      .same (List.Subset.refl _) rfl rfl, fun _ _ => jobs_set trivial⟩
  · cases again <;> exact .moves trivial
  · exact .moves trivial
  · rename_i row is
    rw [is] at inTime
    refine ⟨.stored { row with secretEnc } ?_ inTime rfl rfl, .same rfl rfl rfl,
      .same (List.Subset.refl _) rfl rfl, fun _ _ => jobs_set trivial⟩
    intro old same
    rw [is] at same
    cases same
    exact inTime

theorem confirm_facts (found : s.jobs[i]? = some (.enrolling secretEnc step))
    (inTime : s.lapses (.commit i codes) = false) (unseen : s.unseen codes = true) :
    Facts service s (.commit i codes) (s.confirm i step codes) := by
  simp only [State.lapses, found] at inTime
  unfold State.confirm
  split
  · rename_i row is
    simp only [is, Bool.and_eq_false_iff, Bool.or_eq_false_iff,
      List.any_eq_false, decide_eq_true_eq, Nat.not_le] at inTime
    split
    · exact .moves trivial
    · rename_i pending
      have pending : row.confirmed = false := by simpa using pending
      have later := (inTime.resolve_left (by simp [pending])).2
      exact ⟨.confirmed row step is pending later rfl rfl, .replaced codes unseen rfl rfl rfl,
        .same (List.Subset.refl _) rfl rfl, fun _ _ => jobs_set trivial⟩
  · exact .moves trivial

theorem useStep_facts : Facts service s (.commit i codes) (s.useStep i purpose step) := by
  unfold State.useStep
  split
  · rename_i row is
    split
    · rename_i live
      refine ⟨.used row step is live.1 (fun last same => ?_) rfl rfl, .same rfl rfl rfl,
        .same (List.Subset.refl _) rfl rfl, fun _ _ => jobs_set trivial⟩
      simpa [same] using live.2
    · exact .moves trivial
  · exact .moves trivial

theorem spend_facts {codeHash : String} :
    Facts service s (.commit i codes) (s.spend i purpose codeHash) := by
  unfold State.spend
  dsimp only
  split
  · rename_i one
    refine ⟨.same rfl rfl, .marked codeHash rfl (.inr ⟨rfl, ?_⟩) rfl,
      .same (List.Subset.refl _) rfl rfl, fun _ _ => jobs_set trivial⟩
    obtain ⟨code, mem⟩ := List.exists_mem_of_length_pos (one ▸ Nat.one_pos)
    obtain ⟨inCodes, mine⟩ := List.mem_filter.mp mem
    simp only [Bool.and_eq_true, decide_eq_true_eq, Bool.not_eq_true'] at mine
    exact ⟨code, inCodes, mine⟩
  · exact ⟨.same rfl rfl, .marked codeHash rfl (.inl rfl) rfl,
      .same (List.Subset.refl _) rfl rfl, fun _ _ => jobs_set trivial⟩

theorem consume_facts {jti : String} : Facts service s a (s.consume i jti now) := by
  unfold State.consume
  dsimp only
  split
  · rename_i there
    obtain ⟨row, mem, mine⟩ := List.any_eq_true.mp there
    simp only [Bool.and_eq_true, decide_eq_true_eq] at mine
    obtain ⟨rfl, live⟩ := mine
    exact ⟨.same rfl rfl, .same rfl rfl rfl, .consumed row now mem live rfl rfl rfl,
      fun _ _ => jobs_set trivial⟩
  · exact .moves trivial

theorem facts_of_step (step : s.Step service a s') (inTime : s.lapses a = false)
    (sound : ∀ (k : Nat) job, s.jobs[k]? = some job → JobSound service job) :
    Facts service s a s' := by
  cases a with
  | ask job =>
    simp only [State.Step, State.act, Option.ite_none_right_eq_some, Option.some.injEq] at step
    obtain ⟨arrives, rfl⟩ := step
    refine ⟨.same rfl rfl, .same rfl rfl rfl, .same (List.Subset.refl _) rfl rfl,
      fun k next there => ?_⟩
    rcases Table.append_cases there with ⟨rfl, rfl⟩ | was
    · refine .inr ?_
      cases next with
      | proving | enrolling => cases arrives
      | _ => exact trivial
    · exact .inl was
  | challenge jti expiresAt now =>
    simp only [State.Step, State.act, Option.ite_none_left_eq_some, Option.some.injEq] at step
    obtain ⟨unseen, rfl⟩ := step
    refine ⟨.same rfl rfl, .same rfl rfl rfl, .drawn jti expiresAt unseen ?_ rfl rfl,
      fun _ _ => .inl⟩
    intro row mem
    rcases List.mem_append.mp mem with was | now
    · exact List.mem_append_left _ (List.mem_filter.mp was).1
    · exact List.mem_append_right _ now
  | reset =>
    cases step
    exact ⟨.reset rfl rfl rfl, .reset rfl rfl rfl, .same (List.nil_subset _) rfl rfl,
      fun _ _ => .inl⟩
  | look i now =>
    simp only [State.Step, State.act] at step
    split at step <;> cases step
    split <;> exact .moves trivial
  | read i =>
    simp only [State.Step, State.act] at step
    obtain ⟨next, reads, rfl⟩ := Option.map_eq_some_iff.mp step
    obtain ⟨job, _, is⟩ := Option.bind_eq_some_iff.mp reads
    exact .moves (read_sound is)
  | check i now =>
    simp only [State.Step, State.act] at step
    obtain ⟨next, checks, rfl⟩ := Option.map_eq_some_iff.mp step
    obtain ⟨job, found, is⟩ := Option.bind_eq_some_iff.mp checks
    exact .moves (check_sound (sound i job found) is)
  | commit i codes =>
    simp only [State.Step, State.act] at step
    split at step
    · rename_i found
      cases step
      exact store_facts found inTime
    · rename_i found
      split at step <;> cases step
      rename_i unseen
      exact confirm_facts found inTime unseen
    · cases step
      exact useStep_facts
    · cases step
      exact spend_facts
    · cases step
  | finish i now codes =>
    simp only [State.Step, State.act] at step
    split at step
    · cases step
      exact consume_facts
    · cases step
      exact .moves trivial
    · split at step <;> cases step
      rename_i unseen
      exact ⟨.same rfl rfl, .replaced codes unseen rfl rfl rfl,
        .same (List.Subset.refl _) rfl rfl, fun _ _ => jobs_set trivial⟩
    · cases step

end Steps

section Invariants

variable {service : Service} {s s' : State} {a : Act}

structure Steps (s : State) : Prop where
  ascend : s.steps.Pairwise (· < ·)
  last : ∀ row, s.totp = some row → row.confirmed = true →
    ∃ last, row.lastStep = some last ∧ ∀ step ∈ s.steps, step ≤ last

variable {steps : List Nat} {step : Nat}

theorem ascend_snoc (ascend : steps.Pairwise (· < ·)) (later : ∀ old ∈ steps, old < step) :
    (steps ++ [step]).Pairwise (· < ·) := by
  rw [List.pairwise_append]
  refine ⟨ascend, List.pairwise_singleton _ _, fun old mem new is => ?_⟩
  rw [List.mem_singleton.mp is]
  exact later old mem

theorem last_snoc (later : ∀ old ∈ steps, old < step) : ∀ old ∈ steps ++ [step], old ≤ step := by
  intro old mem
  rcases List.mem_append.mp mem with was | now
  · exact Nat.le_of_lt (later old was)
  · exact Nat.le_of_eq (List.mem_singleton.mp now)

theorem Steps.kept (inv : Steps s) (enrols : Enrols s a s') : Steps s' := by
  obtain ⟨ascend, last⟩ := inv
  cases enrols with
  | same totp steps =>
    refine ⟨steps ▸ ascend, fun row is live => ?_⟩
    rw [steps]
    exact last row (totp ▸ is) live
  | reset is totp steps =>
    refine ⟨steps ▸ ascend, fun row found => ?_⟩
    rw [totp] at found
    cases found
  | stored row open_ pending totp steps =>
    refine ⟨steps ▸ ascend, fun other found live => ?_⟩
    rw [totp] at found
    cases found
    rw [pending] at live
    cases live
  | confirmed row step found pending later totp steps =>
    refine ⟨steps ▸ ascend_snoc ascend later, fun other there live => ?_⟩
    rw [totp] at there
    cases there
    exact ⟨step, rfl, steps ▸ last_snoc later⟩
  | used row step found live later totp steps =>
    obtain ⟨top, is, most⟩ := last row found live
    have above : ∀ old ∈ s.steps, old < step := fun old mem =>
      Nat.lt_of_le_of_lt (most old mem) (later top is)
    refine ⟨steps ▸ ascend_snoc ascend above, fun other there _ => ?_⟩
    rw [totp] at there
    cases there
    exact ⟨step, rfl, steps ▸ last_snoc above⟩

structure Codes (s : State) : Prop where
  once : s.spent.Nodup
  unspent : ∀ code ∈ s.recoveryCodes, code.used = false → code.codeHash ∉ s.spent
  coined : ∀ code ∈ s.recoveryCodes, code.codeHash ∈ s.coined
  spent : s.spent ⊆ s.coined

theorem Codes.kept (inv : Codes s) (spends : Spends s s') : Codes s' := by
  obtain ⟨once, unspent, coined, spent⟩ := inv
  cases spends with
  | same codes spent' coined' =>
    constructor
    · rwa [spent']
    · rwa [codes, spent']
    · rwa [codes, coined']
    · rwa [spent', coined']
  | reset codes spent' coined' =>
    constructor
    · rwa [spent']
    · simp [codes]
    · simp [codes]
    · rwa [spent', coined']
  | replaced codes unseen is spent' coined' =>
    simp only [State.unseen, List.all_eq_true, Bool.not_eq_true', List.contains_eq_mem,
      decide_eq_false_iff_not] at unseen
    constructor
    · rwa [spent']
    · intro code mem _
      rw [is] at mem
      obtain ⟨fresh, isNew, rfl⟩ := List.mem_map.mp mem
      rw [spent']
      exact fun was => unseen fresh isNew (spent was)
    · intro code mem
      rw [is] at mem
      obtain ⟨fresh, isNew, rfl⟩ := List.mem_map.mp mem
      rw [coined']
      exact List.mem_append_right _ isNew
    · rw [spent', coined']
      exact fun code mem => List.mem_append_left _ (spent mem)
  | marked codeHash codes spent' coined' =>
    -- the codes that are left unused were unused before, and are not the one that is spent
    have left : ∀ code ∈ s'.recoveryCodes, code.codeHash ∈ s.coined ∧
        (code.used = false → code ∈ s.recoveryCodes ∧ code.codeHash ≠ codeHash) := by
      intro code mem
      rw [codes] at mem
      obtain ⟨was, inCodes, rfl⟩ := List.mem_map.mp mem
      split
      · exact ⟨coined was inCodes, fun used => by cases used⟩
      · rename_i other
        refine ⟨coined was inCodes, fun unused => ⟨inCodes, fun same => other ?_⟩⟩
        simp [same, unused]
    constructor
    · rcases spent' with is | ⟨is, code, mem, rfl, unused⟩
      · rwa [is]
      · rw [is]
        exact List.nodup_append.mpr ⟨once, List.nodup_singleton _, fun old was new now same => by
          rw [List.mem_singleton.mp now] at same
          exact unspent code mem unused (same ▸ was)⟩
    · intro code mem unused was
      obtain ⟨inCodes, other⟩ := (left code mem).2 unused
      rcases spent' with is | ⟨is, _⟩
      · exact unspent code inCodes unused (is ▸ was)
      · rw [is] at was
        rcases List.mem_append.mp was with before | now
        · exact unspent code inCodes unused before
        · exact other (List.mem_singleton.mp now)
    · intro code mem
      rw [coined']
      exact (left code mem).1
    · rw [coined']
      rcases spent' with is | ⟨is, code, mem, rfl, _⟩
      · rwa [is]
      · rw [is]
        intro old was
        rcases List.mem_append.mp was with before | now
        · exact spent before
        · exact List.mem_singleton.mp now ▸ coined code mem

structure Challenges (s : State) : Prop where
  once : s.consumed.Nodup
  open_ : ∀ row ∈ s.challenges, row.jti ∉ s.consumed
  drawn : ∀ row ∈ s.challenges, row.jti ∈ s.drawn
  consumed : s.consumed ⊆ s.drawn
  single : ∀ row ∈ s.challenges, ∀ other ∈ s.challenges, row.jti = other.jti → row = other

theorem Challenges.kept (inv : Challenges s) (consumes : Consumes s s') : Challenges s' := by
  obtain ⟨once, open_, drawn, consumed, single⟩ := inv
  cases consumes with
  | same challenges consumed' drawn' =>
    refine ⟨consumed' ▸ once, fun row mem => ?_, fun row mem => ?_, ?_, fun row mem other mem' => ?_⟩
    · exact consumed' ▸ open_ row (challenges mem)
    · exact drawn' ▸ drawn row (challenges mem)
    · rwa [consumed', drawn']
    · exact single row (challenges mem) other (challenges mem')
  | drawn jti expiresAt unseen challenges consumed' drawn' =>
    refine ⟨consumed' ▸ once, fun row mem was => ?_, fun row mem => ?_, ?_,
      fun row mem other mem' same => ?_⟩
    · rw [consumed'] at was
      rcases List.mem_append.mp (challenges mem) with before | now
      · exact open_ row before was
      · rw [List.mem_singleton.mp now] at was
        exact unseen (consumed was)
    · rw [drawn']
      rcases List.mem_append.mp (challenges mem) with before | now
      · exact List.mem_append_left _ (drawn row before)
      · exact List.mem_append_right _ (by simp [List.mem_singleton.mp now])
    · rw [consumed', drawn']
      exact fun old was => List.mem_append_left _ (consumed was)
    · rcases List.mem_append.mp (challenges mem) with before | now <;>
        rcases List.mem_append.mp (challenges mem') with before' | now'
      · exact single row before other before' same
      · obtain rfl := List.mem_singleton.mp now'
        have seen := drawn row before
        rw [same] at seen
        exact absurd seen unseen
      · obtain rfl := List.mem_singleton.mp now
        have seen := drawn other before'
        rw [← same] at seen
        exact absurd seen unseen
      · rw [List.mem_singleton.mp now, List.mem_singleton.mp now']
  | consumed row now mem live challenges consumed' drawn' =>
    have left : ∀ other ∈ s'.challenges, other ∈ s.challenges ∧ other.jti ≠ row.jti := by
      intro other mem'
      rw [challenges] at mem'
      obtain ⟨there, differs⟩ := List.mem_filter.mp mem'
      refine ⟨there, fun same => ?_⟩
      obtain rfl := single other there row mem same
      simp [live] at differs
    refine ⟨?_, fun other mem' was => ?_, fun other mem' => ?_, ?_,
      fun one mem₁ other mem₂ => single one (left one mem₁).1 other (left other mem₂).1⟩
    · rw [consumed']
      exact List.nodup_append.mpr ⟨once, List.nodup_singleton _, fun old was new now same => by
        rw [List.mem_singleton.mp now] at same
        exact open_ row mem (same ▸ was)⟩
    · rw [consumed'] at was
      rcases List.mem_append.mp was with before | now
      · exact open_ other (left other mem').1 before
      · exact (left other mem').2 (List.mem_singleton.mp now)
    · exact drawn' ▸ drawn other (left other mem').1
    · rw [consumed', drawn']
      intro old was
      rcases List.mem_append.mp was with before | now
      · exact consumed before
      · exact List.mem_singleton.mp now ▸ drawn row mem

structure Sound (service : Service) (s : State) : Prop where
  steps : Steps s
  codes : Codes s
  challenges : Challenges s
  jobs : ∀ (k : Nat) job, s.jobs[k]? = some job → JobSound service job

theorem Sound.kept (sound : Sound service s) (facts : Facts service s a s') : Sound service s' where
  steps := sound.steps.kept facts.totp
  codes := sound.codes.kept facts.codes
  challenges := sound.challenges.kept facts.challenges
  jobs k job there := (facts.jobs k job there).elim (sound.jobs k job) id

theorem Sound.start : Sound service {} where
  steps := ⟨List.Pairwise.nil, by simp⟩
  codes := ⟨List.nodup_nil, by simp, by simp, List.nil_subset _⟩
  challenges := ⟨List.nodup_nil, by simp, by simp, List.nil_subset _, by simp⟩
  jobs := by simp

def Proved (service : Service) (t : Runs.Step State Act) : Prop :=
  ∀ i codes secretEnc step row, t.label = .commit i codes →
    t.before.jobs[i]? = some (.enrolling secretEnc step) → t.before.totp = some row →
    row.confirmed = false → t.after.totp = some ⟨secretEnc, true, some step⟩ ∧
      ∃ secret code now, service.decrypt secretEnc = some secret ∧
        verify service.hotp secret code now none = some step

def KeepsSecret (t : Runs.Step State Act) : Prop :=
  ∀ row, t.before.totp = some row → row.confirmed = true → t.label ≠ .reset →
    ∃ row', t.after.totp = some row' ∧ row'.confirmed = true ∧ row'.secretEnc = row.secretEnc

theorem keeps_secret (enrols : Enrols s a s') : KeepsSecret ⟨s, a, s'⟩ := by
  intro row found live other
  dsimp only at found other ⊢
  cases enrols with
  | same totp => exact ⟨row, totp ▸ found, live, rfl⟩
  | reset is => exact absurd is other
  | stored _ open_ =>
    rw [open_ row found] at live
    cases live
  | confirmed old _ there pending =>
    rw [there] at found
    cases found
    rw [pending] at live
    cases live
  | used old step there _ _ totp =>
    rw [there] at found
    cases found
    exact ⟨_, totp, live, rfl⟩

theorem confirm_proved (step : s.Step service a s') (inTime : s.lapses a = false)
    (sound : Sound service s) : Proved service ⟨s, a, s'⟩ := by
  intro i codes secretEnc last row is there found pending
  dsimp only at is there found ⊢
  subst is
  refine ⟨?_, sound.jobs i _ there⟩
  simp only [State.lapses, there, found, pending, Bool.not_false, Bool.true_and,
    Bool.or_eq_false_iff, decide_eq_false_iff_not, not_not] at inTime
  simp only [State.Step, State.act, there, Option.ite_none_right_eq_some, Option.some.injEq] at step
  obtain ⟨_, rfl⟩ := step
  simp [State.confirm, found, pending, inTime.1]

/-- What the codes of a run are: each step, recovery code and challenge is accepted at most once, and no
step after a later one. -/
structure OneTime (service : Service) (trace : List (Runs.Step State Act)) (s : State) : Prop where
  steps : s.steps.Pairwise (· < ·)
  codes : s.spent.Nodup
  challenges : s.consumed.Nodup
  proved : ∀ t ∈ trace, Proved service t
  kept : ∀ t ∈ trace, KeepsSecret t

/-- One-time codes are good once and enrol the secret they prove, when no begin writes over a row that
was confirmed since it was read, and a confirm finds the row it read and a step after all others. -/
theorem one_time {trace : List (Runs.Step State Act)} (run : Runs.Run (State.Step service) {} trace s)
    (inTime : ∀ t ∈ trace, t.before.lapses t.label = false) : OneTime service trace s := by
  have keeps : ∀ s a s', Sound service s → s.lapses a = false → s.Step service a s' →
      Sound service s' := fun s a s' sound inTime step =>
    sound.kept (facts_of_step step inTime sound.jobs)
  have sound := run.invariant_of_guarded (Sound service) (fun s a => s.lapses a = false) Sound.start
    keeps inTime
  refine ⟨sound.steps.ascend, sound.codes.once, sound.challenges.once, ?_, ?_⟩
  · exact run.transitions_of_guarded (Sound service) (fun s a => s.lapses a = false) Sound.start
      keeps (Proved service) (fun s a s' sound inTime step => confirm_proved step inTime sound) inTime
  · exact run.transitions_of_guarded (Sound service) (fun s a => s.lapses a = false) Sound.start
      keeps KeepsSecret
      (fun s a s' sound inTime step => keeps_secret (facts_of_step step inTime sound.jobs).totp)
      inTime

end Invariants

section Sample

/-- A secret is its own ciphertext, and its codes are six digits that tell the step. -/
def device : Service where
  totpKey := true
  decrypt := some
  hotp secret step := (if secret = "first" then '1' else '2') :: (step.repr.toList.leftpad 5 '0')
  hashRecoveryCode code := String.ofList code
  lower code := code.map Char.toLower

def next : State → Act → State := Runs.nextOf (State.act device)

/-- An enrolment, a sign-in with the next code, and a sign-in with the same code again. -/
def enrolAndSignIn : List Act :=
  [.ask (.beginning "first" false), .read 0, .commit 0 [], .ask (.confirming "100007".toList),
    .read 1, .check 1 210, .commit 1 ["a", "b"], .challenge "door" 600 220,
    .ask (.pending "door" "100008".toList), .look 2 240, .read 2, .check 2 240, .commit 2 [],
    .finish 2 240 [], .ask (.presenting .grant "100008".toList), .read 3, .check 3 241]

theorem enrolAndSignIn_once :
    OneTime device (Runs.stepsOf next {} enrolAndSignIn) (enrolAndSignIn.foldl next {}) :=
  one_time (Runs.run_enabled (by decide +kernel)) (by decide +kernel)

def slipsBetween : List Act :=
  [.ask (.beginning "first" false), .read 0, .commit 0 [], .ask (.confirming "100007".toList),
    .read 1, .check 1 210, .ask (.beginning "second" false), .read 2, .commit 2 []]

theorem unproved_secret : ¬∀ (s : State) (trace : List (Runs.Step State Act)),
    Runs.Run (State.Step device) {} trace s → OneTime device trace s := by
  intro always
  have kept := always _ _
    (@Runs.run_enabled _ _ ({} : State) (State.act device) (slipsBetween ++ [.commit 1 []])
      (by decide +kernel))
  have last : (⟨slipsBetween.foldl next {}, .commit 1 [],
      next (slipsBetween.foldl next {}) (.commit 1 [])⟩ : Runs.Step State Act) ∈
      Runs.stepsOf next {} (slipsBetween ++ [.commit 1 []]) :=
    List.mem_append_right (Runs.stepsOf next {} slipsBetween) (List.mem_singleton_self _)
  have proved := (kept.proved _ last 1 [] "first" 7 ⟨"second", false, none⟩ rfl (by decide +kernel)
    (by decide +kernel) rfl).1
  have other : (next (slipsBetween.foldl next {}) (.commit 1 [])).totp =
      some ⟨"second", true, some 7⟩ := by decide +kernel
  rw [other] at proved
  simp at proved

end Sample

end Smo.GuiBff.Enrolment
