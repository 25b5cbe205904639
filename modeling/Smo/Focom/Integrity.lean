import Smo.Focom.Provisioning

/-! The two tables of references mirror each other, so whatever an object names stays stored, as long
as no commit is overtaken. Two kinds of reference are outside the second table: inventory resources,
which can be deprovisioned, and the cluster of a provisioning request, which can be deleted. -/
namespace Smo.Focom

/-- A reference names a row, or an inventory resource that is there or has been deprovisioned. -/
def Names (uuid : ReadUuid) (s : State) : Target → Str → Prop
  | .object kind, id => stored s kind id = true
  | .inventory, id => ∃ u, uuid id = some u ∧ (u ∈ s.resources ∨ u ∈ s.deprovisioned)

/-- Whatever a stored object names is there; what is not was deprovisioned, or is the cluster of a
provisioning request that was deleted by its own route. -/
structure Intact (uuid : ReadUuid) (s : State) : Prop where
  refs : ∀ o ∈ s.objects, ∀ attr target id, (attr, target) ∈ check o.kind → (attr, id) ∈ o.refs →
    Names uuid s target id
  clusters : ∀ o ∈ s.objects, ∀ cluster, o.nodeClusterId = some cluster →
    stored s .nodeCluster cluster = true ∨ cluster ∈ s.dropped

section Tables

/-- The delete route scans for the reference, and the target is no cluster or provisioning request. -/
def mirrored (kind : Kind) : Attr × Target → Bool
  | (attr, .object target) => (referrers target).contains (kind, attr) &&
      target != .nodeCluster && target != .provisioningRequest
  | (_, .inventory) => kind != .nodeCluster

theorem check_mirrored (kind : Kind) : ∀ entry ∈ check kind, mirrored kind entry = true := by
  cases kind <;> decide

variable {kind target : Kind} {attr : Attr}

theorem referrers_mirror (checked : (attr, Target.object target) ∈ check kind) :
    (kind, attr) ∈ referrers target ∧ target ≠ .nodeCluster ∧ target ≠ .provisioningRequest := by
  simpa [mirrored, and_assoc] using check_mirrored kind _ checked

theorem inventory_kind (checked : (attr, Target.inventory) ∈ check kind) : kind ≠ .nodeCluster := by
  simpa [mirrored] using check_mirrored kind _ checked

end Tables

section Stored

variable {uuid : ReadUuid} {s s' : State} {kind : Kind} {id : Str} {target : Target}

theorem stored_iff : stored s kind id = true ↔ ∃ o ∈ s.objects, o.kind = kind ∧ o.id = id := by
  simp [stored]

theorem Names.grow (names : Names uuid s target id) (objects : ∀ o ∈ s.objects, o ∈ s'.objects)
    (resources : ∀ u, u ∈ s.resources ∨ u ∈ s.deprovisioned →
      u ∈ s'.resources ∨ u ∈ s'.deprovisioned) : Names uuid s' target id := by
  cases target with
  | object kind =>
    obtain ⟨o, mem, is⟩ := stored_iff.mp names
    exact stored_iff.mpr ⟨o, objects o mem, is⟩
  | inventory =>
    obtain ⟨u, read, has⟩ := names
    exact ⟨u, read, resources u has⟩

theorem referred_iff {refs : List (Attr × Str)} : referred s kind refs = true ↔
    ∀ attr target id, (attr, Target.object target) ∈ check kind → (attr, id) ∈ refs →
      stored s target id = true := by
  simp only [referred, List.all_eq_true, Bool.or_eq_true, bne_iff_ne]
  constructor
  · intro all attr target id checked mem
    simpa using all _ checked _ mem
  · rintro all ⟨attr, target⟩ checked ⟨attr', id⟩ mem
    by_cases same : attr' = attr
    · subst same
      cases target with
      | object target => exact .inr (all _ _ _ checked mem)
      | inventory => exact .inr rfl
    · exact .inl same

end Stored

def Looked (uuid : ReadUuid) (s : State) : Stage → Prop
  | .checking kind body todo => ∀ attr id, (attr, Target.inventory) ∈ check kind →
      (attr, id) ∈ body.refs → (Target.inventory, id) ∈ todo ∨ Names uuid s .inventory id
  | .ready (.store kind body) => ∀ attr id, (attr, Target.inventory) ∈ check kind →
      (attr, id) ∈ body.refs → Names uuid s .inventory id
  | .ready (.withdraw request cluster) => ∀ c, cluster = some c → c ∈ s.drawn ∧
      ∀ o ∈ s.objects, o.nodeClusterId = some c → o.id = request
  | _ => True

structure Sound (uuid : ReadUuid) (s : State) : Prop extends Intact uuid s where
  requests : ∀ stage, some stage ∈ s.requests → Looked uuid s stage
  kinds : ∀ o ∈ s.objects, ∀ cluster, o.nodeClusterId = some cluster →
    o.kind = .provisioningRequest ∧ cluster ∈ s.drawn
  unique : ∀ o ∈ s.objects, ∀ o' ∈ s.objects, ∀ cluster, o.nodeClusterId = some cluster →
    o'.nodeClusterId = some cluster → o.id = o'.id

section Look

variable {uuid : ReadUuid} {s : State} {stage stage' : Stage}

theorem looked_begun (request : Request) : Looked uuid s (begun request) := by
  cases request with
  | create kind body =>
    intro attr id checked mem
    refine .inl (List.mem_flatMap.mpr ⟨(attr, .inventory), checked, ?_⟩)
    exact List.mem_map.mpr ⟨(attr, id), List.mem_filter.mpr ⟨mem, by simp⟩, rfl⟩
  | delete kind id => trivial
  | createProvisioningRequest body => trivial
  | deleteProvisioningRequest id => trivial
  | provisionResource => trivial
  | deprovisionResource id => trivial

theorem Looked.look (looked : Looked uuid s stage) (sound : Sound uuid s)
    (next : look uuid s stage = some stage') : Looked uuid s stage' := by
  cases stage with
  | checking kind body todo =>
    cases todo with
    | nil =>
      cases next
      exact fun attr id checked mem => (looked attr id checked mem).resolve_left List.not_mem_nil
    | cons first todo =>
      obtain ⟨target, id⟩ := first
      simp only [Focom.look] at next
      split at next
      · next has =>
        cases next
        intro attr id' checked mem
        rcases looked attr id' checked mem with todo | names
        · rcases List.mem_cons.mp todo with is | later
          · cases is
            cases read : uuid id with
            | none => simp [found, read] at has
            | some u => exact .inr ⟨u, read, .inl (by simpa [found, read] using has)⟩
          · exact .inl later
        · exact .inr names
      · cases next
  | finding kind id =>
    simp only [Focom.look] at next
    split at next <;> cases next
    trivial
  | scanning kind id todo =>
    cases todo with
    | nil => cases next; trivial
    | cons referrer todo =>
      simp only [Focom.look] at next
      split at next <;> cases next
      trivial
  | resolving body =>
    obtain ⟨o, -, rfl⟩ := Option.map_eq_some_iff.mp next
    trivial
  | typing body template =>
    simp only [Focom.look] at next
    split at next
    · cases next
      trivial
    · obtain ⟨o, -, rfl⟩ := Option.map_eq_some_iff.mp next
      trivial
  | requiring body template typeId =>
    simp only [Focom.look] at next
    split at next <;> cases next
    trivial
  | withdrawing id =>
    obtain ⟨o, found, rfl⟩ := Option.map_eq_some_iff.mp next
    have mem := List.mem_of_find?_eq_some found
    have is := List.find?_some found
    simp only [decide_eq_true_eq] at is
    intro cluster has
    refine ⟨(sound.kinds o mem cluster has).2, fun o' mem' has' => ?_⟩
    rw [← is.2]
    exact sound.unique o' mem' o mem cluster has' has
  | deprovisioning id => cases next; trivial
  | ready change => cases next; exact looked

end Look

section Write

variable {uuid : ReadUuid} {s s' : State} {stage : Stage}

theorem Looked.keep (looked : Looked uuid s stage)
    (resources : ∀ u, u ∈ s.resources ∨ u ∈ s.deprovisioned →
      u ∈ s'.resources ∨ u ∈ s'.deprovisioned)
    (drawn : ∀ id ∈ s.drawn, id ∈ s'.drawn)
    (objects : ∀ o ∈ s'.objects, o ∈ s.objects ∨ ∀ cluster, o.nodeClusterId = some cluster →
      cluster ∉ s.drawn) : Looked uuid s' stage := by
  have inventory : ∀ {id}, Names uuid s .inventory id → Names uuid s' .inventory id :=
    fun ⟨u, read, has⟩ => ⟨u, read, resources u has⟩
  cases stage with
  | checking kind body todo =>
    exact fun attr id checked mem => (looked attr id checked mem).imp_right inventory
  | ready change =>
    cases change with
    | store kind body => exact fun attr id checked mem => inventory (looked attr id checked mem)
    | withdraw request cluster =>
      intro c is
      obtain ⟨known, only⟩ := looked c is
      refine ⟨drawn c known, fun o mem has => ?_⟩
      rcases objects o mem with old | new
      · exact only o old has
      · exact absurd known (new c has)
    | _ => trivial
  | _ => trivial

theorem Intact.filter (intact : Intact uuid s) (keep : Object → Bool)
    (objects : s'.objects = s.objects.filter keep) (resources : s'.resources = s.resources)
    (deprovisioned : s'.deprovisioned = s.deprovisioned) (dropped : ∀ id ∈ s.dropped, id ∈ s'.dropped)
    (unnamed : ∀ gone ∈ s.objects, keep gone = false → ∀ o ∈ s.objects, ∀ attr,
      (attr, Target.object gone.kind) ∈ check o.kind → (attr, gone.id) ∉ o.refs)
    (clusters : ∀ gone ∈ s.objects, keep gone = false → gone.kind = .nodeCluster →
      gone.id ∈ s'.dropped ∨ ∀ o ∈ s'.objects, o.nodeClusterId ≠ some gone.id) :
    Intact uuid s' := by
  have old : ∀ o ∈ s'.objects, o ∈ s.objects := by
    rw [objects]
    exact fun o mem => List.mem_of_mem_filter mem
  constructor
  · intro o mem attr target id checked ref
    have names := intact.refs o (old o mem) attr target id checked ref
    cases target with
    | inventory =>
      obtain ⟨u, read, has⟩ := names
      rw [← resources, ← deprovisioned] at has
      exact ⟨u, read, has⟩
    | object kind =>
      obtain ⟨named, there, rfl, rfl⟩ := stored_iff.mp names
      cases kept : keep named with
      | true =>
        refine stored_iff.mpr ⟨named, ?_, rfl, rfl⟩
        rw [objects]
        exact List.mem_filter.mpr ⟨there, kept⟩
      | false => exact absurd ref (unnamed named there kept o (old o mem) attr checked)
  · intro o mem cluster is
    rcases intact.clusters o (old o mem) cluster is with there | gone
    · obtain ⟨named, there', kind, rfl⟩ := stored_iff.mp there
      cases kept : keep named with
      | true =>
        refine .inl (stored_iff.mpr ⟨named, ?_, kind, rfl⟩)
        rw [objects]
        exact List.mem_filter.mpr ⟨there', kept⟩
      | false =>
        rcases clusters named there' kept kind with gone | other
        · exact .inr gone
        · exact absurd is (other o mem)
    · exact .inr (dropped cluster gone)

theorem Intact.append (intact : Intact uuid s) (added : List Object)
    (objects : s'.objects = s.objects ++ added) (resources : s'.resources = s.resources)
    (deprovisioned : s'.deprovisioned = s.deprovisioned) (dropped : s'.dropped = s.dropped)
    (refs : ∀ o ∈ added, ∀ attr target id, (attr, target) ∈ check o.kind → (attr, id) ∈ o.refs →
      Names uuid s target id)
    (clusters : ∀ o ∈ added, ∀ cluster, o.nodeClusterId = some cluster →
      stored s' .nodeCluster cluster = true) : Intact uuid s' := by
  have grown : ∀ {target id}, Names uuid s target id → Names uuid s' target id := by
    intro target id names
    refine names.grow (fun o mem => ?_) fun u has => ?_
    · rw [objects]
      exact List.mem_append_left _ mem
    · rwa [resources, deprovisioned]
  constructor
  · intro o mem attr target id checked ref
    rw [objects] at mem
    rcases List.mem_append.mp mem with old | new
    · exact grown (intact.refs o old attr target id checked ref)
    · exact grown (refs o new attr target id checked ref)
  · intro o mem cluster is
    rw [objects] at mem
    rcases List.mem_append.mp mem with old | new
    · rcases intact.clusters o old cluster is with there | gone
      · exact .inl (@grown (.object .nodeCluster) cluster there)
      · exact .inr (dropped ▸ gone)
    · exact .inl (clusters o new cluster is)

theorem write_objects {id id' : Str} {change : Change} {o : Object}
    (mem : o ∈ (write s id id' change).objects) :
    o ∈ s.objects ∨ o.nodeClusterId = none ∨
      o.kind = .provisioningRequest ∧ o.id = id ∧ o.nodeClusterId = some id' := by
  cases change with
  | store kind body =>
    rcases List.mem_append.mp mem with old | new
    · exact .inl old
    · rw [List.mem_singleton.mp new]
      exact .inr (.inl rfl)
  | drop kind old => exact .inl (List.mem_of_mem_filter mem)
  | fulfil body typeId template =>
    simp only [write, List.mem_append, List.mem_cons, List.not_mem_nil, or_false] at mem
    rcases mem with old | rfl | rfl
    · exact .inl old
    · exact .inr (.inl rfl)
    · exact .inr (.inr ⟨rfl, rfl, rfl⟩)
  | withdraw request cluster => exact .inl (List.mem_of_mem_filter mem)
  | provision => exact .inl mem
  | deprovision resource => cases resource <;> exact .inl mem

theorem write_resources {id id' : Str} {change : Change} {u : Str}
    (has : u ∈ s.resources ∨ u ∈ s.deprovisioned) :
    u ∈ (write s id id' change).resources ∨ u ∈ (write s id id' change).deprovisioned := by
  cases change with
  | provision => exact has.imp_left (List.mem_append_left _)
  | deprovision resource =>
    cases resource with
    | none => exact has
    | some old =>
      by_cases same : u = old
      · exact .inr (same ▸ List.mem_cons_self)
      · rcases has with there | gone
        · exact .inl (List.mem_filter.mpr ⟨there, by simpa using same⟩)
        · exact .inr (List.mem_cons_of_mem _ gone)
  | _ => exact has

theorem Sound.write_intact (sound : Sound uuid s) {id id' : Str} {change : Change}
    (looked : Looked uuid s (.ready change)) (holds : overtaken s change = false) :
    Intact uuid (write s id id' change) := by
  cases change with
  | store kind body =>
    rw [overtaken, Bool.not_eq_false'] at holds
    refine sound.toIntact.append _ rfl rfl rfl rfl (fun o new => ?_) fun o new cluster is => ?_
    · rw [List.mem_singleton.mp new]
      intro attr target id checked ref
      cases target with
      | object target => exact referred_iff.mp holds attr target id checked ref
      | inventory => exact looked attr id checked ref
    · rw [List.mem_singleton.mp new] at is
      cases is
  | drop kind old =>
    refine sound.toIntact.filter _ rfl rfl rfl (fun id mem => ?_) (fun gone mem out o has attr checked =>
      ?_) fun gone mem out is => ?_
    · simp only [write]
      split
      · exact List.mem_cons_of_mem _ mem
      · exact mem
    · simp only [Bool.not_eq_false', decide_eq_true_eq] at out
      obtain ⟨rfl, rfl⟩ := out
      intro ref
      have none := List.any_eq_false.mp holds _ (referrers_mirror checked).1
      exact none (List.any_eq_true.mpr ⟨o, has, by simpa using ref⟩)
    · simp only [Bool.not_eq_false', decide_eq_true_eq] at out
      obtain ⟨rfl, rfl⟩ := out
      left
      simp [write, is]
  | fulfil body typeId template =>
    rw [overtaken, Bool.not_eq_false'] at holds
    have there : stored (write s id id' (.fulfil body typeId template)) .nodeCluster id' = true :=
      stored_iff.mpr ⟨clusterOf body typeId template id', by simp [write], rfl, rfl⟩
    refine sound.toIntact.append _ rfl rfl rfl rfl (fun o new => ?_) fun o new cluster is => ?_
    · simp only [List.mem_cons, List.not_mem_nil, or_false] at new
      rcases new with rfl | rfl
      · intro attr target id checked ref
        cases target with
        | object target => exact referred_iff.mp holds attr target id checked ref
        | inventory => exact absurd rfl (inventory_kind checked)
      · exact fun attr target id checked => absurd checked List.not_mem_nil
    · simp only [List.mem_cons, List.not_mem_nil, or_false] at new
      rcases new with rfl | rfl
      · cases is
      · cases is
        exact there
  | withdraw request cluster =>
    refine sound.toIntact.filter _ rfl rfl rfl (fun id mem => mem) (fun gone mem out o has attr checked =>
      ?_) fun gone mem out is => ?_
    · obtain ⟨-, notCluster, notRequest⟩ := referrers_mirror checked
      simp [notCluster, notRequest] at out
    · right
      simp only [is, reduceCtorEq, false_and, decide_false, Bool.not_false, true_and, Bool.true_and,
        Bool.not_eq_false', decide_eq_true_eq] at out
      intro o left names
      obtain ⟨there, kept⟩ := List.mem_filter.mp left
      obtain ⟨-, only⟩ := looked gone.id out.symm
      simp [(sound.kinds o there gone.id names).1, only o there names] at kept
  | provision =>
    refine ⟨fun o mem attr target id checked ref => ?_, sound.clusters⟩
    exact (sound.refs o mem attr target id checked ref).grow (fun _ mem => mem) fun _ => write_resources
  | deprovision resource =>
    refine ⟨fun o mem attr target id checked ref => ?_, fun o mem => ?_⟩
    · have old : o ∈ s.objects := by cases resource <;> exact mem
      refine (sound.refs o old attr target id checked ref).grow (fun _ has => ?_) fun _ => write_resources
      cases resource <;> exact has
    · cases resource <;> exact sound.clusters o mem

theorem mem_requests {requests : List (Option Stage)} {i : Nat} {next : Option Stage}
    (mem : some stage ∈ requests.set i next) : next = some stage ∨ some stage ∈ requests :=
  (List.mem_or_eq_of_mem_set mem).symm.imp Eq.symm id

theorem request_mem {requests : List (Option Stage)} {i : Nat} (is : requests[i]?.join = some stage) :
    some stage ∈ requests := by
  rw [Option.join_eq_some_iff] at is
  exact List.mem_of_getElem? is

theorem Sound.act {act : Act} (sound : Sound uuid s) (holds : s.lapses act = false) (step : Step uuid s act s') :
    Sound uuid s' := by
  cases act with
  | arrive request =>
    cases step
    refine ⟨⟨sound.refs, sound.clusters⟩, fun stage mem => ?_, sound.kinds, sound.unique⟩
    rcases List.mem_append.mp mem with old | new
    · exact (sound.requests stage old).keep (fun _ has => has) (fun _ has => has) fun _ has => .inl has
    · cases List.mem_singleton.mp new
      exact looked_begun request
  | look i =>
    simp only [Step, State.act] at step
    split at step
    · next stage is =>
      cases step
      refine ⟨⟨sound.refs, sound.clusters⟩, fun stage' mem => ?_, sound.kinds, sound.unique⟩
      have keep : ∀ {other}, Looked uuid s other →
          Looked uuid { s with requests := s.requests.set i (look uuid s stage) } other := fun looked =>
        looked.keep (fun _ has => has) (fun _ has => has) fun _ has => .inl has
      rcases mem_requests mem with next | old
      · exact keep ((sound.requests stage (request_mem is)).look sound next)
      · exact keep (sound.requests stage' old)
    · cases step
  | commit i id id' =>
    simp only [Step, State.act] at step
    split at step
    · next change is =>
      split at step
      · next fresh =>
        cases step
        obtain ⟨fresh, fresh', -⟩ := fresh
        rw [State.lapses, is] at holds
        have looked := sound.requests _ (request_mem is)
        have intact := @Sound.write_intact uuid s sound id id' change looked holds
        have added : ∀ o ∈ (write s id id' change).objects, o ∈ s.objects ∨
            ∀ cluster, o.nodeClusterId = some cluster → cluster ∉ s.drawn := by
          intro o mem
          rcases write_objects mem with old | none | ⟨-, -, new⟩
          · exact .inl old
          · right
            rw [none]
            exact nofun
          · right
            rw [new]
            rintro cluster ⟨⟩
            exact fresh'
        refine ⟨⟨intact.refs, intact.clusters⟩, fun stage mem => ?_, fun o mem cluster names => ?_,
          fun o mem o' mem' cluster names names' => ?_⟩
        · have old := (mem_requests mem).resolve_left nofun
          refine (sound.requests stage old).keep (fun _ => write_resources) (fun _ has => ?_) added
          exact List.mem_cons_of_mem _ (List.mem_cons_of_mem _ has)
        · rcases write_objects mem with old | none | ⟨kind, -, new⟩
          · obtain ⟨kind, known⟩ := sound.kinds o old cluster names
            exact ⟨kind, List.mem_cons_of_mem _ (List.mem_cons_of_mem _ known)⟩
          · rw [none] at names
            cases names
          · obtain rfl := Option.some.inj (new.symm.trans names)
            exact ⟨kind, List.mem_cons_of_mem _ List.mem_cons_self⟩
        · rcases write_objects mem with old | none | ⟨-, is, new⟩
          · rcases write_objects mem' with old' | none | ⟨-, -, new⟩
            · exact sound.unique o old o' old' cluster names names'
            · rw [none] at names'
              cases names'
            · obtain rfl := Option.some.inj (new.symm.trans names')
              exact absurd (sound.kinds o old _ names).2 fresh'
          · rw [none] at names
            cases names
          · obtain rfl := Option.some.inj (new.symm.trans names)
            rcases write_objects mem' with old' | none | ⟨-, is', -⟩
            · exact absurd (sound.kinds o' old' _ names').2 fresh'
            · rw [none] at names'
              cases names'
            · rw [is, is']
      · cases step
    · cases step

theorem sound_start : Sound uuid {} :=
  ⟨⟨fun _ mem => absurd mem List.not_mem_nil, fun _ mem => absurd mem List.not_mem_nil⟩,
    fun _ mem => absurd mem List.not_mem_nil, fun _ mem => absurd mem List.not_mem_nil,
    fun _ mem => absurd mem List.not_mem_nil⟩

theorem look_objects {i : Nat} (step : Step uuid s (.look i) s') :
    s'.objects = s.objects ∧ s'.resources = s.resources := by
  simp only [Step, State.act] at step
  split at step
  · cases step
    exact ⟨rfl, rfl⟩
  · cases step

end Write

section Run

variable {uuid : ReadUuid} {trace : List (Runs.Step State Act)} {s : State}

/-- In every state of a run in which no commit is overtaken every reference names what is there, and
a request that is refused leaves every object. -/
theorem run_intact (run : Runs.Run (Step uuid) {} trace s)
    (kept : ∀ t ∈ trace, t.before.lapses t.label = false) :
    Intact uuid s ∧ ∀ t ∈ trace, ∀ i, t.label = .look i →
      t.after.objects = t.before.objects ∧ t.after.resources = t.before.resources := by
  constructor
  · exact (run.invariant_of_guarded (Sound uuid) (fun s act => s.lapses act = false) sound_start
      (fun _ _ _ sound holds step => sound.act holds step) kept).toIntact
  · refine run.transitions (fun _ => True) trivial (fun _ _ _ _ _ => trivial)
      (fun t => ∀ i, t.label = .look i →
        t.after.objects = t.before.objects ∧ t.after.resources = t.before.resources) ?_
    rintro before label after - step i is
    dsimp only at is
    subst is
    exact look_objects step

end Run

section Example

def someUuid : ReadUuid := some

def kept : List Act := [
  .arrive .provisionResource, .commit 0 "r".toList "x0".toList,
  .arrive (.create .clusterResourceType { name := "type".toList }), .look 1,
  .commit 1 "t".toList "x1".toList,
  .arrive (.create .clusterResource { name := "node".toList, refs := [
    (.clusterResourceTypeId, "t".toList), (.resourceId, "r".toList)] }),
  .look 2, .look 2, .look 2, .commit 2 "c".toList "x2".toList]

theorem kept_intact : Intact someUuid (kept.foldl (Runs.nextOf (State.act someUuid)) {}) :=
  (run_intact (Runs.run_enabled (by decide +kernel)) (by decide +kernel)).1

def removed : List Act := kept ++ [
  .arrive (.deprovisionResource "r".toList), .look 3, .commit 3 "x3".toList "x4".toList]

/-- The resource is deprovisioned, and the cluster resource names nothing any more. -/
theorem deprovisioned_named : ∃ s trace, Runs.Run (Step someUuid) {} trace s ∧
    ∃ o ∈ s.objects, o.kind = .clusterResource ∧ (Attr.resourceId, "r".toList) ∈ o.refs ∧
      found someUuid s .inventory "r".toList = false := by
  have run : Runs.Run (Step someUuid) {} (Runs.stepsOf (Runs.nextOf (State.act someUuid)) {} removed)
      (removed.foldl (Runs.nextOf (State.act someUuid)) {}) := Runs.run_enabled (by decide +kernel)
  exact ⟨_, _, run, { name := "node".toList, refs := [(.clusterResourceTypeId, "t".toList),
    (.resourceId, "r".toList)], kind := .clusterResource, id := "c".toList }, by decide +kernel,
    rfl, by decide, by decide +kernel⟩

end Example

end Smo.Focom
