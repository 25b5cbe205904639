import Smo.RappMgmt.Pairs

/-! Stopped instances, over runs. An operator stops an instance and RAN NF OAM stops the invoker id
that it has then; new credentials and the commit of an upgrade give it an id that is not stopped. -/
namespace Smo.RappMgmt

open Runs

section Stops

variable (manifest : PackageId → RappLimits)

def Stops (w : World) (id : InstanceId) : Act → Prop
  | .kill o id' => id' = id ∧ ∃ s, killInstance o id w = .ok () s
  | .killAll o => o.reply .listKills = .done ∧ ∃ inst ∈ liveInstances w.db, inst.instanceId = id ∧
      ∃ client, inst.oauthClientId = some client ∧
        (w.platform.killed client = true ∨ o.reply (.putKill client) = .done)
  | _ => False

def Lifts (w : World) (id : InstanceId) : Act → Prop
  | .liftKill o id' => id' = id ∧ ∃ inst, loads o w id = some inst ∧
      ∃ client, inst.oauthClientId = some client ∧ (o.reply (.deleteKill client)).applied = true
  | .resumeAll o => o.reply .listKills = .done ∧ ∃ inst ∈ liveInstances w.db, inst.instanceId = id ∧
      ∃ client, inst.oauthClientId = some client ∧ w.platform.killed client = true ∧
        (o.reply (.deleteKill client)).applied = true
  | _ => False

def TakesPlace (w w' : World) (old new : InstanceId) : Prop :=
  Replaced w' old new ∧ ¬Replaced w old new

/-- The instances that are stopped after a request: those that it stops, and those that were stopped
and the replacements that took their place, as long as nobody lets them go on. -/
def stoppedNext (stopped : InstanceId → Prop) (t : Runs.Step World Act) (id : InstanceId) : Prop :=
  Stops t.before id t.label ∨
    (stopped id ∨ ∃ old, stopped old ∧ TakesPlace t.before t.after old id) ∧
      ¬Lifts t.before id t.label

def Stopped (trace : List (Runs.Step World Act)) : InstanceId → Prop :=
  trace.foldl stoppedNext fun _ => False

structure Commits (o : Outside) (w : World) (old new : RAppInstance) : Prop
    extends Takes manifest o w old new where
  unnamed : ¬Named w old.instanceId

/-- A request gives no stopped instance new credentials, and commits no upgrade of a stopped instance
whose replacement has an invoker id that is not stopped. -/
def Keeps (stopped : InstanceId → Prop) (w : World) : Act → Prop
  | .credentials o id => ¬(stopped id ∧ ∃ inst, loads o w id = some inst ∧
      inst.state = .deploying ∧ Issues o inst)
  | .resolve o id true => stopped id → ∀ old new client, old.instanceId = id →
      Commits manifest o w old new → new.oauthClientId = some client →
        w.platform.killed client = true
  | _ => True

end Stops

section Moves

variable {manifest : PackageId → RappLimits} {begun s s' : World} {act : Act}
  {inst found old new : RAppInstance} {id : InstanceId} {client : ClientId}
  {stopped : InstanceId → Prop}

theorem Move.holder (move : Move manifest begun act s s') (row : s'.db.row id = some found)
    (is : found.oauthClientId = some client) :
    (∃ before, s.db.row id = some before ∧ before.oauthClientId = some client) ∨ begun.drawn ≤ id ∨
      ∃ o inst, act = .credentials o id ∧ loads o begun id = some inst ∧ inst.state = .deploying ∧
        Issues o inst := by
  have written : ∀ {inst left : RAppInstance}, s'.db = s.db.put left →
      s.db.row inst.instanceId = some inst → left.instanceId = inst.instanceId →
      (∀ c, left.oauthClientId = some c → inst.oauthClientId = some c) →
      ∃ before, s.db.row id = some before ∧ before.oauthClientId = some client := by
    intro inst left rows there key same
    rcases row_put_cases (rows ▸ row) with ⟨rfl, rfl⟩ | ⟨-, before⟩
    · exact ⟨inst, key ▸ there, same _ is⟩
    · exact ⟨found, before, is⟩
  cases move with
  | calls calls => exact .inl ⟨found, calls.db ▸ row, is⟩
  | passed | stopped | lifted | refused => exact .inl ⟨found, row, is⟩
  | created inst fresh unused plain =>
    rcases row_add_cases fresh row with ⟨rfl, rfl⟩ | ⟨-, before⟩
    · exact .inr (.inl unused)
    · exact .inl ⟨found, before, is⟩
  | rotated is' there loaded issued deploying drawn fresh =>
    rcases row_put_cases row with ⟨rfl, rfl⟩ | ⟨-, before⟩
    · exact .inr (.inr ⟨_, _, is', loaded, deploying, issued⟩)
    · exact .inl ⟨found, before, is⟩
  | bootstrapped _ there _ _ _ _ | recovered _ there _ | crashed _ there _ _ _ | configured _ there =>
    exact .inl (written rfl there rfl fun _ same => same)
  | started _ there running loaded named fresh unused replaces made =>
    rcases started_row fresh row with ⟨rfl, rfl⟩ | ⟨rfl, rfl⟩ | ⟨-, before⟩
    · exact .inr (.inl unused)
    · exact .inl ⟨_, there, is⟩
    · exact .inl ⟨found, before, is⟩
  | rolledBack there pending newRow =>
    obtain ⟨-, ⟨rfl, rfl⟩ | ⟨-, before⟩⟩ := rolled_row row
    · exact .inl ⟨_, there, is⟩
    · exact .inl ⟨found, before, is⟩
  | abandoned begunRow owner gone pending newRow unnamed =>
    exact .inl ⟨found, (abandoned_row gone row).2, is⟩
  | @committed o old found' new is' there pending newRow ran takes same unnamed =>
    obtain ⟨-, ⟨rfl, rfl⟩ | ⟨-, before⟩⟩ := replaced_row row
    · rcases ran with ⟨-, rfl⟩ | ⟨-, set, rfl, -⟩
      · exact .inl ⟨_, newRow, is⟩
      · exact .inl ⟨_, newRow, is⟩
    · exact .inl ⟨found, before, is⟩
  | terminated there legal unowned same undeployed revoked alone is' plain =>
    refine .inl (written rfl there same fun c its => ?_)
    cases revoked.symm.trans its
  | deleted is' there undeployed unnamed => exact .inl ⟨found, (row_remove_some row).2, is⟩

theorem Move.killed (move : Move manifest begun act s s') (is : s.platform.killed client = true) :
    s'.platform.killed client = true ∨ ∃ inst, Lifts begun inst.instanceId act ∧
      s.db.row inst.instanceId = some inst ∧ inst.oauthClientId = some client := by
  cases move with
  | calls calls => exact .inl (calls.killed ▸ is)
  | refused is' same takes row names killed more => exact .inl (killed ▸ is)
  | rolledBack | abandoned | terminated => exact .inl ((teardown_killed _ _ _).symm ▸ is)
  | committed is' row pending newRow ran takes same unnamed =>
    exact .inl ((teardown_killed _ _ _).symm ▸ is)
  | crashed => exact .inl ((reconsiderRegistrations_killed _ _ _).symm ▸ is)
  | @stopped inst stopped row id =>
    refine .inl ?_
    by_cases same : client = stopped
    · simp [same]
    · exact (Function.update_of_ne same _ _).trans is
  | @lifted o inst lifted is' row id applied =>
    by_cases same : client = lifted
    · subst same
      refine .inr ⟨inst, ?_, row, id⟩
      rcases is' with ⟨rfl, loaded⟩ | ⟨rfl, read, live, stopped⟩
      · exact ⟨rfl, inst, loaded, client, id, applied⟩
      · rw [id] at stopped
        exact ⟨read, inst, live, rfl, client, id, stopped, applied⟩
    · exact .inl ((Function.update_of_ne same _ _).trans is)
  | _ => exact .inl is

theorem Move.takes (move : Move manifest begun act s s') {gone : InstanceId}
    (takes : TakesPlace begun s' gone id) : TakesPlace begun s gone id ∨
      ∃ o old new, act = .resolve o gone true ∧ old.instanceId = gone ∧ new.instanceId = id ∧
        Commits manifest o begun old new ∧ begun.db = s.db := by
  obtain ⟨⟨version, mem, is⟩, not⟩ := takes
  have before : s'.db.versions = s.db.versions → TakesPlace begun s gone id := fun same =>
    ⟨⟨version, same ▸ mem, is⟩, not⟩
  cases move with
  | calls calls => exact .inl (before (congrArg Db.versions calls.db))
  | @committed o old found new is' row pending newRow ran taken same unnamed =>
    obtain ⟨listed, mem, new, previous⟩ := recordVersion_mem mem
    rcases List.mem_append.mp mem with early | recorded
    · exact .inl ⟨⟨listed, early, previous.trans is.1, new.trans is.2⟩, not⟩
    · obtain rfl := List.mem_singleton.mp recorded
      have key : old.instanceId = gone := previous.trans is.1
      refine .inr ⟨o, old, found, key ▸ is', key, ?_, ⟨taken, ?_⟩, same⟩
      · rw [← new.trans is.2]
        rcases ran with ⟨-, rfl⟩ | ⟨-, set, rfl, -⟩ <;> rfl
      · rintro ⟨owner, other, there, names⟩
        exact unnamed owner other (same ▸ there) names
  | _ => exact .inl (before rfl)

/-- What holds in a request of the instances that are stopped, and of the replacements that take
their place, while nobody lets them go on. -/
structure Holding (begun : World) (act : Act) (stopped : InstanceId → Prop) (s : World) : Prop where
  wf : Wf s
  takes : ∀ gone id, TakesPlace begun s gone id → ∃ o, act = .resolve o gone true
  early : ∀ id, stopped id ∨ (∃ gone, stopped gone ∧ TakesPlace begun s gone id) → id < begun.drawn
  held : ∀ id inst client, stopped id ∨ (∃ gone, stopped gone ∧ TakesPlace begun s gone id) →
    ¬Lifts begun id act → s.db.row id = some inst → inst.oauthClientId = some client →
      s.platform.killed client = true
  more : (∃ o id, act = .resolve o id true) →
    ∀ client, begun.platform.killed client = true → s.platform.killed client = true

theorem Holding.move (holding : Holding begun act stopped s) (keeps : Keeps manifest stopped begun act)
    (begunWf : Wf begun) (move : Move manifest begun act s s') : Holding begun act stopped s' := by
  have killed : ∀ client, s.platform.killed client = true →
      (∀ inst, s.db.row inst.instanceId = some inst → inst.oauthClientId = some client →
        ¬Lifts begun inst.instanceId act) → s'.platform.killed client = true := by
    intro client is none
    rcases move.killed is with still | ⟨inst, lifts, row, its⟩
    · exact still
    · exact absurd lifts (none inst row its)
  have early : ∀ id, stopped id ∨ (∃ gone, stopped gone ∧ TakesPlace begun s' gone id) →
      id < begun.drawn := by
    rintro id (was | ⟨gone, was, takes⟩)
    · exact holding.early id (.inl was)
    · rcases move.takes takes with before | ⟨o, old, new, is, rfl, rfl, commits, same⟩
      · exact holding.early id (.inr ⟨gone, was, before⟩)
      · exact begunWf.ids _ _ commits.newRow
  have takes : ∀ gone id, TakesPlace begun s' gone id → ∃ o, act = .resolve o gone true := by
    intro gone id takes
    rcases move.takes takes with before | ⟨o, old, new, is, -⟩
    · exact holding.takes gone id before
    · exact ⟨o, is⟩
  refine ⟨move.wf holding.wf, takes, early, ?_, ?_⟩
  · intro id inst client was not row its
    rcases move.holder row its with ⟨before, there, holds⟩ | late | ⟨o, inst, rfl, loaded⟩
    · have alone : ∀ inst, s.db.row inst.instanceId = some inst →
          inst.oauthClientId = some client → ¬Lifts begun inst.instanceId act := by
        intro inst row same
        rw [holding.wf.clientsOnce _ _ _ _ _ row there same holds]
        exact not
      rcases was with was | ⟨gone, was, takes⟩
      · exact killed client (holding.held id before client (.inl was) not there holds) alone
      · rcases move.takes takes with earlier | ⟨o, old, new, rfl, rfl, rfl, commits, same⟩
        · refine killed client (holding.held id before client ?_ not there holds) alone
          exact .inr ⟨gone, was, earlier⟩
        · rw [← same, commits.newRow] at there
          obtain rfl := Option.some.inj there
          exact killed client (holding.more ⟨o, _, rfl⟩ _ (keeps was old _ client rfl commits holds)) alone
    · exact absurd (early id was) (Nat.not_lt.mpr late)
    · rcases was with was | ⟨gone, was, taken⟩
      · exact absurd ⟨was, inst, loaded⟩ keeps
      · obtain ⟨o, is⟩ := takes gone id taken
        cases is
  · rintro ⟨o, id, rfl⟩ client is
    exact killed client (holding.more ⟨o, id, rfl⟩ client is) fun _ _ _ lifts => lifts

theorem Holding.path (keeps : Keeps manifest stopped begun act) (wf : Wf begun)
    (early : ∀ id, stopped id → id < begun.drawn)
    (held : ∀ id inst client, stopped id → begun.db.row id = some inst →
      inst.oauthClientId = some client → begun.platform.killed client = true)
    (path : Path manifest begun act begun s) : Holding begun act stopped s := by
  induction path with
  | refl =>
    refine ⟨wf, fun _ _ takes => absurd takes.1 takes.2, ?_, ?_, fun _ _ is => is⟩
    · rintro id (was | ⟨_, -, takes⟩)
      · exact early id was
      · exact absurd takes.1 takes.2
    · rintro id inst client (was | ⟨_, -, takes⟩) - row its
      · exact held id inst client was row its
      · exact absurd takes.1 takes.2
  | tail _ move ih => exact ih.move keeps wf move

end Moves

section Kills

variable {manifest : PackageId → RappLimits} {w s : World} {o : Outside} {inst : RAppInstance}
  {id : InstanceId} {client : ClientId}

theorem killCall_ok : Leads False s (killCall o inst)
    (fun _ t => t.db = s.db ∧ (∀ client, s.platform.killed client = true →
      t.platform.killed client = true) ∧
      ∃ client, inst.oauthClientId = some client ∧ t.platform.killed client = true)
    (fun t => t.db = s.db ∧ (∀ client, s.platform.killed client = true →
      t.platform.killed client = true) ∧
      ∀ client, inst.oauthClientId = some client → o.reply (.putKill client) ≠ .done) := by
  simp only [killCall]
  split
  · next none => exact refuses ⟨rfl, fun _ is => is, fun client is => by cases none.symm.trans is⟩
  · next client holds =>
    refine follow (called _) ?_
    rintro _ _ rfl
    have more : ∀ other, s.platform.killed other = true →
        (setKilled client true (o.reply (.putKill client)) s.platform).killed other = true := by
      intro other is
      simp only [setKilled]
      split
      · by_cases same : other = client
        · simp [same]
        · exact (Function.update_of_ne same _ _).trans is
      · exact is
    refine Leads.ite (fun done => returns _ ⟨rfl, more, client, holds, ?_⟩) fun not =>
      refuses ⟨rfl, more, fun other is => ?_⟩
    · simp [setKilled, done, Reply.applied]
    · obtain rfl := Option.some.inj (holds.symm.trans is)
      exact not

theorem loads_row (loaded : loads o w id = some inst) : (w.db.row id).isSome = true := by
  simp only [loads] at loaded
  split at loaded
  · cases loaded
  · next row => simp [row]

theorem killInstance_ok (wf : Wf w) : Leads False w (killInstance o id)
    (fun _ s => (w.db.row id).isSome = true ∧ ∀ inst client, s.db.row id = some inst →
      inst.oauthClientId = some client → s.platform.killed client = true) (fun _ => True) := by
  have loads : Leads False w (loadInstance o id) (fun inst s => Loaded o w s id inst) fun _ => True :=
    (@loadInstance_ok (fun _ => {}) w w (.pass 0) o id wf).weaken (fun _ _ loaded => loaded)
      fun _ _ => trivial
  refine follow loads ?_
  intro inst s loaded
  refine killCall_ok.weaken ?_ fun _ _ => trivial
  rintro _ t ⟨same, -, client, its, is⟩
  refine ⟨loads_row loaded.loads, fun inst' client' row its' => ?_⟩
  rw [same, loaded.row] at row
  obtain rfl := Option.some.inj row
  obtain rfl := Option.some.inj (its.symm.trans its')
  exact is

structure Killed (o : Outside) (s : World) (insts : List RAppInstance) (t : World) : Prop where
  db : t.db = s.db
  more : ∀ client, s.platform.killed client = true → t.platform.killed client = true
  now : ∀ inst ∈ insts, ∀ client, inst.oauthClientId = some client →
    o.reply (.putKill client) = .done → t.platform.killed client = true

theorem killCall_killed : Leads False s (killCall o inst) (fun _ => Killed o s [inst])
    (Killed o s [inst]) := by
  refine killCall_ok.weaken ?_ ?_
  · rintro _ t ⟨db, more, client, its, is⟩
    refine ⟨db, more, fun other mem client' its' _ => ?_⟩
    obtain rfl := List.mem_singleton.mp mem
    obtain rfl := Option.some.inj (its.symm.trans its')
    exact is
  · rintro t ⟨db, more, not⟩
    refine ⟨db, more, fun other mem client its done => ?_⟩
    obtain rfl := List.mem_singleton.mp mem
    exact absurd done (not client its)

theorem forEach_kills {insts : List RAppInstance} : Leads False s (forEach (killCall o) insts)
    (fun _ => Killed o s insts) (fun _ => False) := by
  induction insts generalizing s with
  | nil => exact returns _ ⟨rfl, fun _ is => is, fun _ mem => absurd mem List.not_mem_nil⟩
  | cons inst rest ih =>
    refine follow (caught killCall_killed) ?_
    rintro _ t first
    refine ih.weaken ?_ fun _ h => h
    rintro _ u later
    refine ⟨later.db.trans first.db, fun client is => later.more client (first.more client is), ?_⟩
    intro other mem client its done
    rcases List.mem_cons.mp mem with rfl | mem
    · exact later.more client (first.now other List.mem_cons_self client its done)
    · exact later.now other mem client its done

theorem killAllInstances_ok (read : o.reply .listKills = .done) :
    Leads False w (killAllInstances o)
      (fun _ s => s.db = w.db ∧ ∀ inst ∈ liveInstances w.db, ∀ client,
        inst.oauthClientId = some client →
          w.platform.killed client = true ∨ o.reply (.putKill client) = .done →
            s.platform.killed client = true) (fun _ => False) := by
  have stopped : Leads False w (stoppedInvokerIds o)
      (fun stopped s => s = w ∧ stopped = w.platform.killed) (fun _ => False) := by
    simp only [stoppedInvokerIds, read, if_true]
    exact reads (returns _ ⟨rfl, rfl⟩)
  refine follow stopped ?_
  rintro _ w ⟨rfl, rfl⟩
  refine reads (forEach_kills.weaken ?_ fun _ h => h)
  rintro _ s killed
  refine ⟨killed.db, fun inst live client its is => ?_⟩
  by_cases already : w.platform.killed client = true
  · exact killed.more client already
  · refine killed.now inst (List.mem_filter.mpr ⟨live, ?_⟩) client its (is.resolve_left already)
    simpa [its] using already

end Kills

section Runs

variable {manifest : PackageId → RappLimits} {start w w' : World} {act : Act}

theorem Stops.held {id : InstanceId} (wf : Wf w) (stops : Stops w id act) : id < w.drawn ∧
    ∀ inst client, (after manifest w act).db.row id = some inst → inst.oauthClientId = some client →
      (after manifest w act).platform.killed client = true := by
  have early : (w.db.row id).isSome = true → id < w.drawn := fun there => by
    obtain ⟨inst, row⟩ := Option.isSome_iff_exists.mp there
    exact wf.ids _ _ row
  cases act with
  | kill o id' =>
    obtain ⟨rfl, s, is⟩ := stops
    have ended := @killInstance_ok w o id' wf w rfl
    rw [is] at ended
    simp only [after, request, is]
    exact ⟨early ended.1, ended.2⟩
  | killAll o =>
    obtain ⟨read, inst, live, rfl, client, its, is⟩ := stops
    have row := Db.row_of_mem wf.distinct (List.mem_filter.mp live).1
    refine ⟨early (by simp [row]), fun inst' client' row' its' => ?_⟩
    have ended := @killAllInstances_ok w o read w rfl
    simp only [after, request] at row' ⊢
    cases done : killAllInstances o w with
    | ok value s =>
      rw [done] at ended
      simp only [done] at row' ⊢
      rw [ended.1, row] at row'
      obtain rfl := Option.some.inj row'
      obtain rfl := Option.some.inj (its.symm.trans its')
      exact ended.2 inst live client its is
    | error failure s =>
      rw [done] at ended
      exact ended.1.elim
  | _ => exact stops.elim

/-- The instances that are stopped after a run, and the invoker ids of their rows. -/
structure Held (trace : List (Runs.Step World Act)) (w : World) : Prop where
  wf : Wf w
  early : ∀ id, Stopped trace id → id < w.drawn
  held : ∀ id inst client, Stopped trace id → w.db.row id = some inst →
    inst.oauthClientId = some client → w.platform.killed client = true

theorem stopped_snoc (trace : List (Runs.Step World Act)) (t : Runs.Step World Act) :
    Stopped (trace ++ [t]) = stoppedNext (Stopped trace) t := List.foldl_append

theorem Path.drawn (path : Path manifest w act w w') : w.drawn ≤ w'.drawn := by
  induction path with
  | refl => exact Nat.le_refl _
  | tail _ move ih => exact ih.trans move.drawn

theorem Held.step {trace : List (Runs.Step World Act)} (held : Held trace w)
    (keeps : Keeps manifest (Stopped trace) w act) (step : Step manifest w act w') :
    Held (trace ++ [⟨w, act, w'⟩]) w' := by
  subst step
  have path := @after_path manifest w held.wf act
  have holding := Holding.path keeps held.wf held.early held.held path
  refine ⟨holding.wf, fun id was => ?_, fun id inst client was row its => ?_⟩ <;>
    rw [stopped_snoc] at was
  · refine Nat.lt_of_lt_of_le ?_ path.drawn
    rcases was with stops | ⟨was, -⟩
    · exact (@Stops.held manifest _ _ _ held.wf stops).1
    · exact holding.early id was
  · rcases was with stops | ⟨was, not⟩
    · exact (stops.held held.wf).2 inst client row its
    · exact holding.held id inst client was not row its

/-- In every run in which no request gives a stopped instance new credentials, and no upgrade of a
stopped instance is committed with a replacement whose invoker id is not stopped: the invoker id
that the row of a stopped instance holds is one that RAN NF OAM has stopped. -/
theorem stopped_stays {trace : List (Runs.Step World Act)} (empty : start.db = {})
    (run : Run (Step manifest) start trace w)
    (keeps : ∀ earlier t later, trace = earlier ++ t :: later →
      Keeps manifest (Stopped earlier) t.before t.label) :
    ∀ id inst client, Stopped trace id → w.db.row id = some inst →
      inst.oauthClientId = some client → w.platform.killed client = true :=
  (run.invariant_of_guarded_history Held (fun trace w act => Keeps manifest (Stopped trace) w act)
    ⟨(Paired.empty empty).wf, fun _ => False.elim, fun _ _ _ => False.elim⟩
    (fun _ _ _ _ held keeps step => held.step keeps step) keeps).held

end Runs

section Example

def renewed : List Act :=
  [.create calm { packageId := 1 }, .kill calm 0, .credentials calm 0]

def stoppedBoth : List Act :=
  [.create calm { packageId := 1 }, .bootstrapComplete calm none 0, .kill calm 0,
    .upgrade calm 0 2, .kill calm 4, .resolve calm 0 true]

/-- The new invoker id of a stopped instance is not stopped. -/
theorem renewed_goes_on : ¬ ∀ (start w : World) (trace : List (Runs.Step World Act)),
    start.db = {} → Run (Step unlimited) start trace w →
      ∀ id inst client, Stopped trace id → w.db.row id = some inst →
        inst.oauthClientId = some client → w.platform.killed client = true := by
  intro holds
  have run := @run_follow _ _ (Step unlimited) (after unlimited) {} renewed fun _ _ _ => rfl
  have killed : Stopped (stepsOf (after unlimited) {} renewed) 0 :=
    .inr ⟨.inl (.inl ⟨rfl, _, rfl⟩), nofun⟩
  have stopped := holds _ _ _ rfl run 0 _ 4 killed rfl rfl
  cases stopped

theorem stoppedBoth_stays : Stopped (stepsOf (after unlimited) {} stoppedBoth) 4 ∧
    (stoppedBoth.foldl (after unlimited) {}).platform.killed 5 = true := by
  have killed : Stopped (stepsOf (after unlimited) {} stoppedBoth) 4 :=
    .inr ⟨.inl (.inl ⟨rfl, _, rfl⟩), nofun⟩
  refine ⟨killed, stopped_stays rfl (run_follow fun _ _ _ => rfl) (fun earlier t later same => ?_)
    4 _ 5 killed rfl rfl⟩
  have mem : t ∈ stepsOf (after unlimited) {} stoppedBoth := by simp [same]
  simp only [stoppedBoth, stepsOf, List.mem_cons, List.not_mem_nil, or_false] at mem
  rcases mem with rfl | rfl | rfl | rfl | rfl | rfl
  · trivial
  · trivial
  · trivial
  · trivial
  · trivial
  · intro _ old new client key commits its
    have row := commits.row
    have newRow := commits.newRow
    rw [key] at row
    obtain rfl := Option.some.inj row
    obtain next := Option.some.inj commits.pending
    rw [← next] at newRow
    obtain rfl := Option.some.inj newRow
    obtain rfl := Option.some.inj its
    rfl

end Example

end Smo.RappMgmt
