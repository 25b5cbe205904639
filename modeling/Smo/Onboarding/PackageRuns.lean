import Smo.Onboarding.PackageGuards

/-! The guards of the package lifecycle along every run of the service. -/
namespace Smo.Onboarding

def Stage.Proceeds : Stage → Prop
  | .inserted .. | .storing .. | .answered .done | .answered .failed => True
  | _ => False

section Steps

variable {s s' : State} {i j : Nat} {stage new : Stage} {a : Act}

theorem write_requests (wrote : s.write stage = some s') : s'.requests = s.requests := by
  cases stage with
  | storing packageId state integrityHash stored =>
    obtain ⟨_, _, _, rfl⟩ := writeRow_some wrote
    rfl
  | ready row known =>
    unfold State.write at wrote
    simp only at wrote
    split at wrote
    · obtain ⟨_, _, _, rfl⟩ := writeRow_some wrote
      rfl
    · split at wrote <;> cases wrote
      rfl
  | opening packageId consumerId =>
    unfold State.write at wrote
    simp only at wrote
    split at wrote <;> cases wrote
    rfl
  | closing registration =>
    unfold State.write at wrote
    simp only at wrote
    split at wrote <;> cases wrote
    rfl
  | asked | inserted | guarding | answered => cases wrote

theorem at_proceeds (found : s.requests[i]? = some stage) (there : s.requests[j]? = some new)
    (proceeds : new.Proceeds) {next : Stage} (goes : stage.Proceeds → next.Proceeds) :
    ∃ last, (s.requests.set i next)[j]? = some last ∧ last.Proceeds := by
  by_cases same : i = j
  · subst same
    rw [found] at there
    cases there
    obtain ⟨within, _⟩ := List.getElem?_eq_some_iff.mp found
    exact ⟨next, by simp [within], goes proceeds⟩
  · rw [List.getElem?_set_ne same]
    exact ⟨new, there, proceeds⟩

theorem act_proceeds (step : State.Step s a s') (there : s.requests[j]? = some stage)
    (proceeds : stage.Proceeds) : ∃ last, s'.requests[j]? = some last ∧ last.Proceeds := by
  unfold State.Step State.act at step
  cases a with
  | ask request =>
    cases step
    obtain ⟨within, _⟩ := List.getElem?_eq_some_iff.mp there
    exact ⟨stage, by rw [List.getElem?_append_left within]; exact there, proceeds⟩
  | load i =>
    simp only at step
    split at step
    · next found =>
      cases step
      exact at_proceeds found there proceeds False.elim
    · next found =>
      cases step
      exact at_proceeds found there proceeds False.elim
    · cases step
  | check i =>
    simp only at step
    split at step
    · next packageId checked found =>
      cases step
      refine at_proceeds found there proceeds fun _ => ?_
      unfold State.check
      split
      · trivial
      · split <;> trivial
    · next found =>
      cases step
      exact at_proceeds found there proceeds False.elim
    · cases step
  | commit i =>
    simp only at step
    split at step
    · next pending_ found =>
      split at step
      · split at step
        · next next wrote =>
          cases step
          unfold State.at_
          rw [write_requests wrote]
          exact at_proceeds found there proceeds fun _ => trivial
        · cases step
          exact at_proceeds found there proceeds fun _ => trivial
      · cases step
    · cases step

theorem act_tables (step : State.Step s a s') :
    (s'.packages = s.packages ∧ s'.registrations = s.registrations) ∨
      ∃ i last, a.of? = some i ∧ s'.requests[i]? = some last ∧ last.Proceeds := by
  unfold State.Step State.act at step
  cases a with
  | ask request =>
    cases step
    exact .inl ⟨rfl, rfl⟩
  | load i =>
    simp only at step
    split at step
    · next checked found =>
      cases step
      obtain ⟨within, _⟩ := List.getElem?_eq_some_iff.mp found
      exact .inr ⟨i, .inserted s.drawn checked, rfl, by simp [State.at_, State.load, within], trivial⟩
    · cases step
      exact .inl ⟨rfl, rfl⟩
    · cases step
  | check i =>
    simp only at step
    split at step <;> cases step
    · exact .inl ⟨rfl, rfl⟩
    · exact .inl ⟨rfl, rfl⟩
  | commit i =>
    simp only at step
    split at step
    · next stage found =>
      obtain ⟨within, _⟩ := List.getElem?_eq_some_iff.mp found
      split at step
      · split at step
        · next next wrote =>
          cases step
          refine .inr ⟨i, .answered .done, rfl, ?_, trivial⟩
          unfold State.at_
          rw [write_requests wrote]
          simp [within]
        · cases step
          exact .inl ⟨rfl, rfl⟩
      · cases step
    · cases step

theorem write_deprimes (sound : Sound s) (sure : Sure s stage) (inTime : s.late stage = false)
    (wrote : s.write stage = some s') {p p' : ApplicationPackage} (mem : p ∈ s.packages)
    (primed : p.state = .primed) (mem' : p' ∈ s'.packages) (same : p'.packageId = p.packageId)
    (available : p'.state = .available) : s'.inUse p.packageId = false := by
  have unmoved (there : p' ∈ s.packages) : False := by
    have is : p' = p := List.inj_on_of_nodup_map sound.distinct there mem same
    rw [is, primed] at available
    cases available
  cases stage with
  | storing packageId state integrityHash stored =>
    obtain ⟨row, found, version, rfl⟩ := writeRow_some wrote
    rcases Table.mem_rewrite mem' with rfl | ⟨there, _⟩
    · have own : p = row := sound.row_eq found mem same.symm
      have onboards := ((sound.first row (package_mem found).1).2 version).1
      rw [own, onboards] at primed
      cases primed
    · exact (unmoved there).elim
  | ready row known =>
    unfold State.write at wrote
    simp only at wrote
    cases next : row.next with
    | some state =>
      rw [next] at wrote
      obtain ⟨old, found, version, rfl⟩ := writeRow_some wrote
      rcases Table.mem_rewrite mem' with rfl | ⟨there, _⟩
      · have own : p = old := sound.row_eq found mem same.symm
        obtain ⟨route, guard, takes, asks⟩ := sure.2.1 state next
        obtain ⟨_, _, deprimes⟩ := leads_spec takes
        have was : row.state = .primed := by
          rw [← sure.1.state found version, ← own]
          exact primed
        have free := free_of_known sure inTime (asks (deprimes was available))
        rw [← same]
        exact free
      · exact (unmoved there).elim
    | none =>
      rw [next] at wrote
      simp only at wrote
      split at wrote
      · cases wrote
        exact (unmoved (List.mem_filter.mp mem').1).elim
      · cases wrote
  | opening packageId consumerId =>
    unfold State.write at wrote
    simp only at wrote
    split at wrote <;> cases wrote
    exact (unmoved mem').elim
  | closing registration =>
    unfold State.write at wrote
    simp only at wrote
    split at wrote <;> cases wrote
    exact (unmoved mem').elim
  | asked | inserted | guarding | answered => cases wrote

theorem act_deprimes (sound : Sound s) (inTime : s.lapses a = false) (step : State.Step s a s')
    {p p' : ApplicationPackage} (mem : p ∈ s.packages) (primed : p.state = .primed)
    (mem' : p' ∈ s'.packages) (same : p'.packageId = p.packageId)
    (available : p'.state = .available) : s'.inUse p.packageId = false := by
  have unmoved (there : p' ∈ s.packages) : False := by
    have is : p' = p := List.inj_on_of_nodup_map sound.distinct there mem same
    rw [is, primed] at available
    cases available
  unfold State.Step State.act at step
  cases a with
  | ask request =>
    cases step
    exact (unmoved mem').elim
  | load i =>
    simp only at step
    split at step
    · cases step
      rcases List.mem_append.mp mem' with old | new
      · exact (unmoved old).elim
      · obtain rfl := List.mem_singleton.mp new
        cases available
    · cases step
      exact (unmoved mem').elim
    · cases step
  | check i =>
    simp only at step
    split at step <;> cases step
    · exact (unmoved mem').elim
    · exact (unmoved mem').elim
  | commit i =>
    simp only at step
    split at step
    · next stage found =>
      have onTime : s.late stage = false := by simpa [State.lapses, found] using inTime
      split at step
      · split at step
        · next next wrote =>
          cases step
          exact write_deprimes sound (sound.sure i stage found) onTime wrote mem primed mem' same available
        · cases step
          exact (unmoved mem').elim
      · cases step
    · cases step

end Steps

structure GuardsHold (trace : List (Runs.Step State Act)) (final : State) : Prop where
  unused : ∀ t ∈ trace, ∀ p ∈ t.after.packages, p.state = .deleting →
    t.after.inUse p.packageId = false
  deprimed : ∀ t ∈ trace, ∀ p ∈ t.before.packages, p.state = .primed → ∀ p' ∈ t.after.packages,
    p'.packageId = p.packageId → p'.state = .available → t.after.inUse p.packageId = false
  unique : ∀ t ∈ trace, ∀ p ∈ t.after.packages, ∀ q ∈ t.after.packages, ∀ hash,
    p.integrityHash = some hash → q.integrityHash = some hash → ¬p.Dead → ¬q.Dead →
      p.packageId = q.packageId
  refused : ∀ t ∈ trace, ∀ i refusal, t.label.of? = some i →
    final.requests[i]? = some (.answered (.refused refusal)) →
      t.after.packages = t.before.packages ∧ t.after.registrations = t.before.registrations

section Runs_

variable {final : State} {trace : List (Runs.Step State Act)}

theorem sound_start : Sound {} where
  distinct := .nil
  drawn := fun _ mem => absurd mem List.not_mem_nil
  first := fun _ mem => absurd mem List.not_mem_nil
  unused := fun _ mem => absurd mem List.not_mem_nil
  unique := fun _ mem => absurd mem List.not_mem_nil
  sure := fun _ _ found => by cases found

theorem refused_unwritten {start : State} (run : Runs.Run State.Step start trace final) :
    ∀ t ∈ trace, ∀ i refusal, t.label.of? = some i →
      final.requests[i]? = some (Stage.answered (.refused refusal)) →
        t.after.packages = t.before.packages ∧ t.after.registrations = t.before.registrations := by
  intro t mem i refusal of_ refused
  have kept := run.later_of_guarded (fun _ => True) (fun _ _ => True) trivial
    (fun _ _ _ _ _ _ => trivial)
    (fun s s' => ∀ (j : Nat) stage, s.requests[j]? = some stage → Stage.Proceeds stage →
      ∃ last, s'.requests[j]? = some last ∧ Stage.Proceeds last)
    (fun _ _ stage there proceeds => ⟨stage, there, proceeds⟩)
    (fun _ _ _ first second j stage there proceeds => by
      obtain ⟨mid, there', proceeds'⟩ := first j stage there proceeds
      exact second j mid there' proceeds')
    (fun _ _ _ _ _ step _ _ there proceeds => act_proceeds step there proceeds)
    (fun _ _ => trivial) t mem
  have writes := run.transitions (fun _ => True) trivial (fun _ _ _ _ _ => trivial)
    (fun t => (t.after.packages = t.before.packages ∧ t.after.registrations = t.before.registrations) ∨
      ∃ i last, t.label.of? = some i ∧ t.after.requests[i]? = some last ∧ Stage.Proceeds last)
    (fun _ _ _ _ step => act_tables step) t mem
  rcases writes with same | ⟨j, last, of_', there, proceeds⟩
  · exact same
  · obtain rfl : i = j := Option.some.inj (of_.symm.trans of_')
    obtain ⟨later, there', proceeds'⟩ := kept i last there proceeds
    rw [refused] at there'
    cases there'
    exact proceeds'.elim

/-- The guards hold in every run in which no commit is late and no use of a package that is being
deleted is opened. -/
theorem guards_hold (run : Runs.Run State.Step {} trace final)
    (inTime : ∀ t ∈ trace, t.before.lapses t.label = false) : GuardsHold trace final where
  unused := run.transitions_of_guarded Sound (fun s a => s.lapses a = false) sound_start
    (fun _ _ _ sound onTime step => sound.act onTime step) _
    (fun _ _ _ sound onTime step => (sound.act onTime step).unused) inTime
  deprimed := run.transitions_of_guarded Sound (fun s a => s.lapses a = false) sound_start
    (fun _ _ _ sound onTime step => sound.act onTime step) _
    (fun _ _ _ sound onTime step _ mem primed _ mem' same available =>
      act_deprimes sound onTime step mem primed mem' same available) inTime
  unique := run.transitions_of_guarded Sound (fun s a => s.lapses a = false) sound_start
    (fun _ _ _ sound onTime step => sound.act onTime step) _
    (fun _ _ _ sound onTime step => (sound.act onTime step).unique) inTime
  refused := refused_unwritten run

end Runs_

/-- One package, primed and used; its deprime is refused, then the use stops and it is deprimed. -/
def inTurn : List Act :=
  [.ask (.onboard (some ⟨"sha", true⟩)), .load 0, .check 0, .commit 0,
    .ask (.move .prime 0), .load 1, .commit 1, .ask (.start 0 "rapp"), .load 2, .commit 2,
    .ask (.move .deprime 0), .load 3, .check 3, .ask (.stop 0 0), .load 4, .commit 4,
    .ask (.move .deprime 0), .load 5, .check 5, .commit 5]

theorem guards_in_turn : GuardsHold (Runs.stepsOf (Runs.nextOf State.act) {} inTurn)
    (inTurn.foldl (Runs.nextOf State.act) {}) :=
  guards_hold (Runs.run_enabled (by decide +kernel)) (by decide +kernel)

def usedWhileDeleted : List Act :=
  [.ask (.onboard (some ⟨"sha", true⟩)), .load 0, .check 0, .commit 0,
    .ask (.move .delete 0), .load 1, .check 1, .ask (.start 0 "rapp"), .load 2, .commit 2, .commit 1]

theorem deleted_in_use : ¬∀ (final : State) (trace : List (Runs.Step State Act)),
    Runs.Run State.Step {} trace final → GuardsHold trace final := by
  intro always
  have run : Runs.Run State.Step {} (Runs.stepsOf (Runs.nextOf State.act) {} usedWhileDeleted)
      (usedWhileDeleted.foldl (Runs.nextOf State.act) {}) := Runs.run_enabled (by decide +kernel)
  have holds := always _ _ run
  have used : ∃ t ∈ Runs.stepsOf (Runs.nextOf State.act) {} usedWhileDeleted,
      ∃ p ∈ t.after.packages, p.state = .deleting ∧ t.after.inUse p.packageId = true := by
    decide +kernel
  obtain ⟨t, mem, p, inRows, deleting, use⟩ := used
  have free := holds.unused t mem p inRows deleting
  rw [use] at free
  cases free

end Smo.Onboarding
