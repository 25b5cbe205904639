import Smo.Onboarding.Packages

/-! What the guards of the package lifecycle keep when no commit comes too late for what its request
has looked at and no use of a package that is being deleted is opened. -/
namespace Smo.Onboarding

def ApplicationPackage.Dead (p : ApplicationPackage) : Prop := p.state = .deleting ∨ p.state = .failed

instance (p : ApplicationPackage) : Decidable p.Dead := inferInstanceAs (Decidable (_ ∨ _))

/-- What other requests may have made of the tables since: a row that is still there is as it was, or
it was neither deleted nor failed and has a later version. -/
structure Later (s s' : State) : Prop where
  drawn : s.drawn ≤ s'.drawn
  rows : ∀ p' ∈ s'.packages, p'.packageId < s.drawn → ∃ p ∈ s.packages,
    p.packageId = p'.packageId ∧ (p' = p ∨ (p.rowVersion < p'.rowVersion ∧ ¬p.Dead))
  used : ∀ packageId, (s.registrationsOf packageId).length ≤ (s'.registrationsOf packageId).length ∧
    ((s'.registrationsOf packageId).length = (s.registrationsOf packageId).length →
      s'.inUse packageId = true → s.inUse packageId = true)

theorem later_at (s : State) (i : Nat) (stage : Stage) : Later s (s.at_ i stage) :=
  ⟨Nat.le_refl _, fun p mem _ => ⟨p, mem, rfl, .inl rfl⟩, fun _ => ⟨Nat.le_refl _, fun _ use => use⟩⟩

def Loaded.Current (s : State) (row : Loaded) : Prop :=
  row.packageId < s.drawn ∧ ∀ p ∈ s.packages, p.packageId = row.packageId →
    row.rowVersion ≤ p.rowVersion ∧ (p.rowVersion = row.rowVersion → p.state = row.state)

def Sure (s : State) : Stage → Prop
  | .storing packageId state integrityHash stored =>
    (state = .available ∨ state = .failed) ∧ (∀ other ∈ stored, other < s.drawn) ∧
      (state = .available → integrityHash ≠ none →
        ∀ p ∈ s.packages, p.packageId ∈ stored → p.packageId = packageId ∨ p.Dead)
  | .guarding row guard =>
    row.Current s ∧ ∃ route next, row.next = some next ∧
      Route.leads route row.state = some (some guard, next)
  | .ready row known =>
    row.Current s ∧ (∀ next, row.next = some next → ∃ route guard,
        Route.leads route row.state = some (guard, next) ∧ (guard.isSome → known.isSome)) ∧
      ∀ n, known = some n → n ≤ (s.registrationsOf row.packageId).length ∧
        ((s.registrationsOf row.packageId).length = n → s.inUse row.packageId = false)
  | _ => True

section Transitions

theorem leads_spec {route : Route} {state next : PackageState} {guard : Option Guard}
    (leads : route.leads state = some (guard, next)) :
    (state ≠ .deleting ∧ state ≠ .failed ∧ state ≠ .onboarding) ∧
      (next = .deleting → guard.isSome) ∧ (state = .primed → next = .available → guard.isSome) := by
  revert leads
  cases route <;> cases state <;> simp [Route.leads, Route.events, onboardingFsm, StateMachine.add,
    StateMachine.fire, guardOf] <;> rintro rfl rfl <;> simp

end Transitions

section Frames

variable {s s' : State} {stage : Stage}

theorem Loaded.Current.later {row : Loaded} (current : row.Current s) (later : Later s s') :
    row.Current s' := by
  obtain ⟨drawn, same⟩ := current
  refine ⟨Nat.lt_of_lt_of_le drawn later.drawn, fun p' mem is => ?_⟩
  obtain ⟨p, inRows, key, unchanged | ⟨older, _⟩⟩ := later.rows p' mem (is ▸ drawn)
  · rw [unchanged]
    exact same p inRows (key.trans is)
  · have bound := (same p inRows (key.trans is)).1
    exact ⟨by omega, fun version => by omega⟩

theorem Sure.later (sure : Sure s stage) (later : Later s s') : Sure s' stage := by
  cases stage with
  | storing packageId state integrityHash stored =>
    obtain ⟨ends, drawn, dead⟩ := sure
    refine ⟨ends, fun other mem => Nat.lt_of_lt_of_le (drawn other mem) later.drawn,
      fun available hash p' mem inStored => ?_⟩
    obtain ⟨p, inRows, key, unchanged | ⟨_, alive⟩⟩ := later.rows p' mem (drawn _ inStored)
    · rw [unchanged]
      exact dead available hash p inRows (key ▸ inStored)
    · rcases dead available hash p inRows (key ▸ inStored) with own | gone
      · exact .inl (key.symm.trans own)
      · exact absurd gone alive
  | guarding row guard => exact ⟨sure.1.later later, sure.2⟩
  | ready row known =>
    obtain ⟨current, leads, looked⟩ := sure
    refine ⟨current.later later, leads, fun n is => ?_⟩
    obtain ⟨bound, free⟩ := looked n is
    obtain ⟨grows, used⟩ := later.used row.packageId
    refine ⟨Nat.le_trans bound grows, fun same => ?_⟩
    have before : (s.registrationsOf row.packageId).length = n := by omega
    refine Bool.eq_false_iff.mpr fun use => ?_
    rw [used (by omega) use] at free
    cases free before
  | asked | inserted | opening | closing | answered => trivial

end Frames

/-- What holds in every state: no package that is deleted is in use, and no two that are neither
deleted nor failed have the same hash. -/
structure Sound (s : State) : Prop where
  distinct : (s.packages.map (·.packageId)).Nodup
  drawn : ∀ p ∈ s.packages, p.packageId < s.drawn
  first : ∀ p ∈ s.packages, 1 ≤ p.rowVersion ∧
    (p.rowVersion = 1 → p.state = .onboarding ∧ p.integrityHash = none)
  unused : ∀ p ∈ s.packages, p.state = .deleting → s.inUse p.packageId = false
  unique : ∀ p ∈ s.packages, ∀ q ∈ s.packages, ∀ hash, p.integrityHash = some hash →
    q.integrityHash = some hash → ¬p.Dead → ¬q.Dead → p.packageId = q.packageId
  sure : ∀ (i : Nat) stage, s.requests[i]? = some stage → Sure s stage

section Steps

variable {s s' : State} {i : Nat} {stage : Stage}

theorem Sound.at_ (sound : Sound s) (sure : Sure s stage) : Sound (s.at_ i stage) where
  distinct := sound.distinct
  drawn := sound.drawn
  first := sound.first
  unused := sound.unused
  unique := sound.unique
  sure j stage' found := by
    have same := later_at s i stage
    rcases Table.set_cases found with ⟨_, rfl⟩ | ⟨_, other⟩
    · exact sure.later same
    · exact (sound.sure j stage' other).later same

variable {packageId : Nat} {row : Loaded} {guard : Guard}

theorem package_mem {row : ApplicationPackage} (found : s.package? packageId = some row) :
    row ∈ s.packages ∧ row.packageId = packageId :=
  ⟨Table.mem_of_get found, Table.key_of_get found⟩

theorem Sound.row_eq (sound : Sound s) {row p : ApplicationPackage}
    (found : s.package? packageId = some row) (mem : p ∈ s.packages) (is : p.packageId = packageId)
    : p = row := by
  have self := Table.get_of_mem sound.distinct mem
  rw [is] at self
  exact Option.some.inj (self.symm.trans found)

theorem Sound.load (sound : Sound s) {request : Request} (notOnboard : ∀ checked, request ≠ .onboard checked) :
    Sure s (s.load request) := by
  cases request with
  | onboard checked => exact absurd rfl (notOnboard checked)
  | move route packageId =>
    unfold State.load
    simp only
    cases found : s.package? packageId with
    | none => trivial
    | some row =>
      obtain ⟨mem, key⟩ := package_mem found
      have current (next : Option PackageState) :
          Loaded.Current s ⟨packageId, row.rowVersion, row.state, next⟩ := by
        refine ⟨key ▸ sound.drawn row mem, fun p inRows is => ?_⟩
        rw [sound.row_eq found inRows is]
        exact ⟨Nat.le_refl _, fun _ => rfl⟩
      simp only
      split
      · exact ⟨current none, nofun, nofun⟩
      · split
        · trivial
        · next next leads =>
          refine ⟨current (some next), fun _ is => ?_, nofun⟩
          cases is
          exact ⟨route, none, leads, nofun⟩
        · next guard next leads => exact ⟨current (some next), route, next, rfl, leads⟩
  | start packageId consumerId =>
    unfold State.load
    simp only
    split <;> trivial
  | stop packageId registration =>
    unfold State.load
    simp only
    split
    · trivial
    · split <;> trivial

theorem inUse_of_allows (allows : s.allows packageId guard = true) : s.inUse packageId = false := by
  unfold State.allows at allows
  cases guard with
  | noActiveInstances => simpa using allows
  | noBlockingDependents =>
    simp only [Bool.and_eq_true, Bool.not_eq_true'] at allows
    exact allows.2

theorem guarded_sure (sure : Sure s (.guarding row guard))
    (allows : s.allows row.packageId guard = true) :
    Sure s (.ready row (some (s.registrationsOf row.packageId).length)) := by
  obtain ⟨current, route, next, is, leads⟩ := sure
  refine ⟨current, fun next' is' => ?_, fun n known => ?_⟩
  · rw [is] at is'
    cases is'
    exact ⟨route, some guard, leads, fun _ => rfl⟩
  · cases known
    exact ⟨Nat.le_refl _, fun _ => inUse_of_allows allows⟩

theorem Sound.checked (sound : Sound s) (packageId : Nat) (checked : Option Checked) :
    Sure s (s.check packageId checked) := by
  unfold State.check
  cases checked with
  | none => exact ⟨.inr rfl, fun _ mem => absurd mem List.not_mem_nil, nofun⟩
  | some checked =>
    simp only
    split
    · exact ⟨.inr rfl, fun _ mem => absurd mem List.not_mem_nil, nofun⟩
    · next single =>
      refine ⟨?_, fun other mem => ?_, fun _ _ p mem stored => ?_⟩
      · split
        · exact .inl rfl
        · exact .inr rfl
      · obtain ⟨p, inStored, rfl⟩ := List.mem_map.mp mem
        exact sound.drawn p (List.mem_filter.mp inStored).1
      · obtain ⟨q, inStored, same⟩ := List.mem_map.mp stored
        obtain ⟨inRows, hash⟩ := List.mem_filter.mp inStored
        have is : q = p := List.inj_on_of_nodup_map sound.distinct inRows mem same
        subst is
        refine Classical.byContradiction fun neither => single ?_
        obtain ⟨other, alive⟩ := not_or.mp neither
        have hash' : q.integrityHash = some checked.integrityHash := by simpa using hash
        refine List.any_eq_true.mpr ⟨q, mem, ?_⟩
        unfold ApplicationPackage.Dead at alive
        simp only [hash', other, decide_true, ne_eq, not_false_eq_true, Bool.and_true, Bool.true_and,
          Bool.not_eq_true', Bool.or_eq_false_iff, decide_eq_false_iff_not]
        exact not_or.mp alive

theorem Sound.moved (sound : Sound s) (later : Later s s') (requests : s'.requests = s.requests)
    (distinct : (s'.packages.map (·.packageId)).Nodup)
    (drawn : ∀ p ∈ s'.packages, p.packageId < s'.drawn)
    (first : ∀ p ∈ s'.packages, 1 ≤ p.rowVersion ∧
      (p.rowVersion = 1 → p.state = .onboarding ∧ p.integrityHash = none))
    (unused : ∀ p ∈ s'.packages, p.state = .deleting → s'.inUse p.packageId = false)
    (unique : ∀ p ∈ s'.packages, ∀ q ∈ s'.packages, ∀ hash, p.integrityHash = some hash →
      q.integrityHash = some hash → ¬p.Dead → ¬q.Dead → p.packageId = q.packageId) : Sound s' where
  distinct := distinct
  drawn := drawn
  first := first
  unused := unused
  unique := unique
  sure i stage found := (sound.sure i stage (requests ▸ found)).later later

theorem Sound.rewritten (sound : Sound s) {packageId : Nat} {row new : ApplicationPackage}
    (found : s.package? packageId = some row) (alive : ¬row.Dead) (key : new.packageId = packageId)
    (version : new.rowVersion = row.rowVersion + 1)
    (unused : new.state = .deleting → s.inUse packageId = false)
    (unique : ∀ hash, new.integrityHash = some hash → ¬new.Dead → ∀ q ∈ s.packages,
      q.packageId ≠ packageId → q.integrityHash = some hash → q.Dead) :
    Sound { s with packages := Table.modify (·.packageId) s.packages packageId fun _ => new } := by
  obtain ⟨mem, is⟩ := package_mem found
  have cases_ {p : ApplicationPackage}
      (there : p ∈ Table.modify ApplicationPackage.packageId s.packages packageId fun _ => new) :=
    Table.mem_rewrite there
  refine sound.moved ⟨Nat.le_refl _, fun p there _ => ?_, fun _ => ⟨Nat.le_refl _, fun _ use => use⟩⟩ rfl
    ?_ (fun p there => ?_) (fun p there => ?_) (fun p there => ?_) (fun p there q there' => ?_)
  · rcases cases_ there with rfl | ⟨old, _⟩
    · exact ⟨row, mem, is.trans key.symm, .inr ⟨by omega, alive⟩⟩
    · exact ⟨p, old, rfl, .inl rfl⟩
  · refine Table.nodup_rewrite sound.distinct fun q _ other => ?_
    rw [key]
    exact other
  · rcases cases_ there with rfl | ⟨old, _⟩
    · rw [key, ← is]
      exact sound.drawn row mem
    · exact sound.drawn p old
  · rcases cases_ there with rfl | ⟨old, _⟩
    · have lower := (sound.first row mem).1
      exact ⟨by omega, fun one => by omega⟩
    · exact sound.first p old
  · rcases cases_ there with rfl | ⟨old, _⟩
    · rw [key]
      exact unused
    · exact sound.unused p old
  · intro hash has has' liveP liveQ
    rcases cases_ there with rfl | ⟨old, other⟩
    · rcases cases_ there' with rfl | ⟨old', other'⟩
      · rfl
      · exact absurd (unique hash has liveP q old' other' has') liveQ
    · rcases cases_ there' with rfl | ⟨old', other'⟩
      · exact absurd (unique hash has' liveQ p old other has) liveP
      · exact sound.unique p old q old' hash has has' liveP liveQ

theorem Sound.opened (sound : Sound s) {consumerId : String}
    (inTime : (s.package? packageId).any (·.state = .deleting) = false) :
    Sound { s with registrations := s.registrations ++ [⟨packageId, consumerId, false⟩] } := by
  have of_ (k : Nat) : State.registrationsOf
      { s with registrations := s.registrations ++ [⟨packageId, consumerId, false⟩] } k =
      s.registrationsOf k ++ if packageId = k then [⟨packageId, consumerId, false⟩] else [] := by
    unfold State.registrationsOf
    rw [List.filter_append]
    by_cases here : packageId = k <;> simp [here]
  have use (k : Nat) (other : packageId ≠ k) : State.inUse
      { s with registrations := s.registrations ++ [⟨packageId, consumerId, false⟩] } k =
      s.inUse k := by
    unfold State.inUse
    rw [of_, if_neg other, List.append_nil]
  refine sound.moved ⟨Nat.le_refl _, fun p mem _ => ⟨p, mem, rfl, .inl rfl⟩, fun k => ?_⟩ rfl
    sound.distinct sound.drawn sound.first (fun p mem deleting => ?_) sound.unique
  · rw [of_, List.length_append]
    refine ⟨by omega, fun same inUse => ?_⟩
    by_cases here : packageId = k
    · rw [if_pos here] at same
      simp at same
    · rw [use k here] at inUse
      exact inUse
  · by_cases here : packageId = p.packageId
    · have found := Table.get_of_mem sound.distinct mem
      rw [here] at inTime
      unfold State.package? at inTime
      rw [found] at inTime
      simp [deleting] at inTime
    · rw [use p.packageId here]
      exact sound.unused p mem deleting

theorem Sound.closed (sound : Sound s) {k : Nat} {row : PackageUsageRegistration}
    (found : s.registrations[k]? = some row) :
    Sound { s with registrations := s.registrations.set k { row with stopped := true } } := by
  obtain ⟨within, at_⟩ := List.getElem?_eq_some_iff.mp found
  have same (packageId : Nat) :
      (s.registrations.set k { row with stopped := true }).map
          (fun row => decide (row.packageId = packageId)) =
        s.registrations.map fun row => decide (row.packageId = packageId) := by
    rw [List.map_set, ← at_]
    refine List.ext_getElem (by simp) fun j _ _ => ?_
    rw [List.getElem_set]
    split
    · next is =>
      subst is
      simp
    · rfl
  have counts (rows : List PackageUsageRegistration) (packageId : Nat) :
      (rows.filter (·.packageId = packageId)).length =
        (rows.map fun row => decide (row.packageId = packageId)).countP id := by
    rw [List.countP_map, ← List.countP_eq_length_filter]
    rfl
  have use (packageId : Nat) (inUse : State.inUse
      { s with registrations := s.registrations.set k { row with stopped := true } } packageId = true) :
      s.inUse packageId = true := by
    obtain ⟨other, mem, open_⟩ := List.any_eq_true.mp inUse
    obtain ⟨there, key⟩ := List.mem_filter.mp mem
    refine List.any_eq_true.mpr ⟨other, List.mem_filter.mpr ⟨?_, key⟩, open_⟩
    rcases Table.mem_set_cases there with rfl | ⟨j, _, was⟩
    · simp at open_
    · exact List.mem_of_getElem? was
  refine sound.moved ⟨Nat.le_refl _, fun p mem _ => ⟨p, mem, rfl, .inl rfl⟩, fun packageId => ?_⟩ rfl
    sound.distinct sound.drawn sound.first (fun p mem deleting => ?_) sound.unique
  · unfold State.registrationsOf
    rw [counts, counts, same]
    exact ⟨Nat.le_refl _, fun _ => use packageId⟩
  · refine Bool.eq_false_iff.mpr fun inUse => ?_
    have free := sound.unused p mem deleting
    rw [use p.packageId inUse] at free
    cases free

theorem writeRow_some {rowVersion : Nat} {write : ApplicationPackage → ApplicationPackage}
    (wrote : s.writeRow packageId rowVersion write = some s') : ∃ row,
      s.package? packageId = some row ∧ row.rowVersion = rowVersion ∧
      s' = { s with packages := Table.modify (·.packageId) s.packages packageId fun _ =>
        { write row with packageId, rowVersion := rowVersion + 1 } } := by
  unfold State.writeRow at wrote
  split at wrote
  · cases wrote
  · next row found =>
    split at wrote
    · next version =>
      cases wrote
      exact ⟨row, found, version, rfl⟩
    · cases wrote

theorem Loaded.Current.state {found : ApplicationPackage} (current : row.Current s)
    (is : s.package? row.packageId = some found) (version : found.rowVersion = row.rowVersion) :
    found.state = row.state :=
  (current.2 found (package_mem is).1 (package_mem is).2).2 version

theorem free_of_known {known : Option Nat} (sure : Sure s (.ready row known))
    (inTime : s.late (.ready row known) = false) (some_ : known.isSome) :
    s.inUse row.packageId = false := by
  obtain ⟨n, rfl⟩ := Option.isSome_iff_exists.mp some_
  refine (sure.2.2 n rfl).2 ?_
  simpa [State.late] using inTime

theorem Sound.write (sound : Sound s) (sure : Sure s stage) (inTime : s.late stage = false)
    (wrote : s.write stage = some s') : Sound s' := by
  cases stage with
  | storing packageId state integrityHash stored =>
    obtain ⟨ends, _, dead⟩ := sure
    obtain ⟨row, found, version, rfl⟩ := writeRow_some wrote
    obtain ⟨mem, _⟩ := package_mem found
    obtain ⟨onboards, unhashed⟩ := (sound.first row mem).2 version
    refine sound.rewritten found ?_ rfl (by simp [version]) ?_ ?_
    · simp [ApplicationPackage.Dead, onboards]
    · rintro rfl
      rcases ends with is | is <;> cases is
    · intro hash is alive q inRows other same
      have available : state = .available := by
        refine ends.resolve_right fun failed => alive (.inr failed)
      subst available
      have has : integrityHash = some hash := by simpa [unhashed] using is
      subst has
      have inStored : q.packageId ∈ stored := by
        have all := List.any_eq_false.mp inTime q.packageId
          (List.mem_map.mpr ⟨q, List.mem_filter.mpr ⟨inRows, by simpa using same⟩, rfl⟩)
        simpa [other] using all
      exact (dead rfl (by simp) q inRows inStored).resolve_left other
  | ready row known =>
    have looked := sure
    obtain ⟨current, leads, _⟩ := sure
    unfold State.write at wrote
    simp only at wrote
    cases next : row.next with
    | some state =>
      rw [next] at wrote
      obtain ⟨old, found, version, rfl⟩ := writeRow_some wrote
      obtain ⟨mem, key⟩ := package_mem found
      obtain ⟨route, guard, takes, asks⟩ := leads state next
      obtain ⟨⟨notDeleting, notFailed, _⟩, deletes, _⟩ := leads_spec takes
      have alive : ¬old.Dead := by
        unfold ApplicationPackage.Dead
        rw [current.state found version]
        exact not_or.mpr ⟨notDeleting, notFailed⟩
      refine sound.rewritten found alive rfl (by simp [version]) ?_ ?_
      · intro deleting
        exact free_of_known looked inTime (asks (deletes deleting))
      · intro hash is _ q inRows other same
        refine Classical.byContradiction fun live => other ?_
        rw [← key]
        exact (sound.unique old mem q inRows hash is same alive live).symm
    | none =>
      rw [next] at wrote
      simp only at wrote
      split at wrote
      · cases wrote
        have kept {p : ApplicationPackage}
            (there : p ∈ s.packages.filter (·.packageId ≠ row.packageId)) : p ∈ s.packages :=
          (List.mem_filter.mp there).1
        exact sound.moved
          ⟨Nat.le_refl _, fun p there _ => ⟨p, kept there, rfl, .inl rfl⟩,
            fun _ => ⟨Nat.le_refl _, fun _ use => use⟩⟩ rfl
          (sound.distinct.sublist (List.filter_sublist.map _)) (fun p there => sound.drawn p (kept there))
          (fun p there => sound.first p (kept there)) (fun p there => sound.unused p (kept there))
          (fun p there q there' => sound.unique p (kept there) q (kept there'))
      · cases wrote
  | opening packageId consumerId =>
    unfold State.write at wrote
    simp only at wrote
    split at wrote
    · cases wrote
      exact sound.opened inTime
    · cases wrote
  | closing registration =>
    unfold State.write at wrote
    simp only at wrote
    split at wrote
    · cases wrote
    · next row found =>
      cases wrote
      exact sound.closed found
  | asked | inserted | guarding | answered => cases wrote

theorem Sound.inserted (sound : Sound s) :
    Sound { s with packages := s.packages ++ [{ packageId := s.drawn }], drawn := s.drawn + 1 } := by
  have cases_ {p : ApplicationPackage} (there : p ∈ s.packages ++ [{ packageId := s.drawn }]) :
      p ∈ s.packages ∨ p = { packageId := s.drawn } := by
    simpa using there
  have fresh : Table.get ApplicationPackage.packageId s.packages s.drawn = none :=
    Table.get_eq_none fun p mem => (Nat.ne_of_lt (sound.drawn p mem))
  refine sound.moved ⟨Nat.le_succ _, fun p there below => ?_, fun _ => ⟨Nat.le_refl _, fun _ use => use⟩⟩
    rfl (Table.nodup_snoc sound.distinct fresh) (fun p there => ?_) (fun p there => ?_)
    (fun p there deleting => ?_) (fun p there q there' hash has has' => ?_)
  · rcases cases_ there with old | rfl
    · exact ⟨p, old, rfl, .inl rfl⟩
    · exact absurd below (Nat.lt_irrefl _)
  · rcases cases_ there with old | rfl
    · exact Nat.lt_succ_of_lt (sound.drawn p old)
    · exact Nat.lt_succ_self _
  · rcases cases_ there with old | rfl
    · exact sound.first p old
    · exact ⟨Nat.le_refl _, fun _ => ⟨rfl, rfl⟩⟩
  · rcases cases_ there with old | rfl
    · exact sound.unused p old deleting
    · cases deleting
  · rcases cases_ there with old | rfl
    · rcases cases_ there' with old' | rfl
      · exact sound.unique p old q old' hash has has'
      · cases has'
    · cases has

theorem Sound.act {a : Act} (sound : Sound s) (inTime : s.lapses a = false)
    (step : State.Step s a s') : Sound s' := by
  unfold State.Step State.act at step
  cases a with
  | ask request =>
    cases step
    refine ⟨sound.distinct, sound.drawn, sound.first, sound.unused, sound.unique,
      fun j stage there => ?_⟩
    have later : Later s { s with requests := s.requests ++ [.asked request] } :=
      ⟨Nat.le_refl _, fun p mem _ => ⟨p, mem, rfl, .inl rfl⟩, fun _ => ⟨Nat.le_refl _, fun _ use => use⟩⟩
    rcases Table.append_cases there with ⟨_, rfl⟩ | other
    · trivial
    · exact (sound.sure j stage other).later later
  | load i =>
    simp only at step
    split at step
    · cases step
      exact Sound.at_ sound.inserted trivial
    · next request other found =>
      cases step
      exact sound.at_ (sound.load fun checked is => other checked (is ▸ rfl))
    · cases step
  | check i =>
    simp only at step
    split at step
    · cases step
      exact sound.at_ (sound.checked _ _)
    · next row guard found =>
      cases step
      refine sound.at_ ?_
      split
      · next allows => exact guarded_sure (sound.sure i _ found) allows
      · trivial
    · cases step
  | commit i =>
    simp only at step
    split at step
    · next stage found =>
      have onTime : s.late stage = false := by simpa [State.lapses, found] using inTime
      split at step
      · split at step
        · next next wrote =>
          cases step
          exact (sound.write (sound.sure i stage found) onTime wrote).at_ trivial
        · cases step
          exact sound.at_ trivial
      · cases step
    · cases step

end Steps

end Smo.Onboarding
