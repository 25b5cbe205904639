import Smo.GuiBff.Events

/-! What a stream of the console's events receives, in any order of offers and drains. -/
namespace Smo.GuiBff.Events

section Keys

variable {raw : List Char} {topic : Topic} {catalog : Catalog}

theorem partition_whole {sep : Char} {text before : List Char}
    (is : Text.partition sep text = (before, none)) : before = text := by
  rw [Text.partition_of_not_mem (Text.partition_none is)] at is
  exact (Prod.mk.inj is).1.symm

theorem sep_notMem_name {name : List Char} (is : scopeName name = true) : claimSep ∉ name := by
  simp only [scopeName, Bool.and_eq_true, List.all_eq_true] at is
  intro mem
  split at is
  · next breaks =>
    obtain ⟨front, rfl⟩ := List.getLast?_eq_some_iff.mp breaks
    rcases List.mem_append.mp mem with inFront | last
    · exact absurd (is.2 claimSep (by simpa using inFront)) (by decide)
    · exact absurd (List.mem_singleton.mp last) (by decide)
  · exact absurd (is.2 claimSep mem) (by decide)

theorem sep_notMem_page {page : List Char} (known : page = attention ∨ page ∈ pages) :
    claimSep ∉ page := by
  rcases known with rfl | mem
  · decide
  · exact (by decide : ∀ page ∈ pages, claimSep ∉ page) page mem

theorem parseTopic_some (parsed : parseTopic raw = some topic) :
    raw = topicPrefix ++ topic.key ∧ topic.claim = none ∧ claimSep ∉ topic.key ∧
      (topic.page = attention ∨ topic.page ∈ pages) := by
  unfold parseTopic at parsed
  split at parsed
  · cases parsed
  next starts =>
    obtain ⟨key, rfl⟩ : topicPrefix <+: raw := by simpa using starts
    rw [List.drop_left] at parsed
    dsimp only at parsed
    rcases is : Text.partition '@' key with ⟨page, scope⟩
    rw [is] at parsed
    dsimp only at parsed
    split at parsed
    · cases parsed
    next known =>
      have known : page = attention ∨ page ∈ pages := by simpa [or_iff_not_imp_left] using known
      cases scope with
      | none =>
        cases parsed
        have whole := partition_whole is
        exact ⟨rfl, rfl, whole ▸ sep_notMem_page known, known⟩
      | some scope =>
        obtain ⟨rfl, -⟩ := Text.partition_some is
        dsimp only at parsed
        rcases at_ : Text.partition '/' scope with ⟨region, cluster⟩
        rw [at_] at parsed
        dsimp only at parsed
        split at parsed <;> cases parsed
        next names =>
          obtain ⟨isRegion, isCluster⟩ := Bool.and_eq_true_iff.mp names
          have plain : claimSep ∉ scope := by
            cases cluster with
            | none => exact partition_whole at_ ▸ sep_notMem_name isRegion
            | some cluster =>
              obtain ⟨rfl, -⟩ := Text.partition_some at_
              simp only [List.mem_append, List.mem_cons, not_or]
              exact ⟨sep_notMem_name isRegion, by decide, sep_notMem_name isCluster⟩
          refine ⟨rfl, rfl, ?_, known⟩
          simp only [List.mem_append, List.mem_cons, not_or]
          exact ⟨sep_notMem_page known, by decide, plain⟩

theorem page_hubKey {J : Type} {claim : Option (List Char)} (nonempty : claim ≠ some [])
    (parsed : parseTopic raw = some topic) (answers : Topic → Option (Answers J)) :
    page catalog (Topic.hubKey { topic with claim }) answers =
      (answers { topic with claim }).map fun given =>
        ({ topic with claim }, compute catalog { topic with claim } given) := by
  obtain ⟨rfl, -, plain, -⟩ := parseTopic_some parsed
  unfold page Topic.hubKey
  cases claim with
  | none =>
    rw [Text.partition_of_not_mem plain]
    simp only [parsed, Option.filter_none]
  | some claim =>
    have kept : (some claim).filter (· ≠ []) = some claim := by
      simpa using fun is => nonempty (congrArg some is)
    rw [Text.partition_append _ plain]
    simp only [parsed, kept]

theorem hubKey_injective (claim : Option (List Char)) {first second : Topic}
    (same : Topic.hubKey { first with claim } = Topic.hubKey { second with claim }) :
    first.key = second.key := by
  unfold Topic.hubKey at same
  cases claim with
  | none => exact same
  | some claim => exact List.append_cancel_right same

theorem encode_ne_nil (claim : Option Scoping.Claim) : Scoping.encode claim ≠ some [] := by
  unfold Scoping.encode
  cases claim.filter (· ≠ []) with
  | none => simp
  | some claim => simp [Json.dumps]

theorem wanted_nodup (topics : List (List Char)) : (wanted topics).Nodup := by
  have each : ∀ (topics out : List (List Char)), out.Nodup → (topics.foldl
      (fun out topic => if topic ≠ [] ∧ topic ∉ out then out ++ [topic] else out) out).Nodup := by
    intro topics
    induction topics with
    | nil => exact fun _ nodup => nodup
    | cons topic rest ih =>
      intro out nodup
      rw [List.foldl_cons]
      refine ih _ ?_
      split
      · next fresh => exact List.nodup_append.mpr ⟨nodup, List.nodup_singleton _, by
          rintro a mem b inNew rfl
          exact fresh.2 (List.mem_singleton.mp inNew ▸ mem)⟩
      · exact nodup
  exact each topics [] List.nodup_nil

theorem mapM_parseTopic {raws : List (List Char)} {parsed : List Topic}
    (are : raws.mapM parseTopic = some parsed) :
    raws = parsed.map (fun topic => topicPrefix ++ topic.key) ∧
      ∀ topic ∈ parsed, ∃ raw, parseTopic raw = some topic := by
  induction raws generalizing parsed with
  | nil =>
    cases are
    simp
  | cons raw rest ih =>
    simp only [List.mapM_cons, Option.bind_eq_bind, Option.bind_eq_some_iff, Option.pure_def] at are
    obtain ⟨topic, first, others, later, same⟩ := are
    cases same
    obtain ⟨raws, each⟩ := ih later
    refine ⟨?_, List.forall_mem_cons.mpr ⟨⟨raw, first⟩, each⟩⟩
    rw [List.map_cons, ← raws, ← (parseTopic_some first).1]

theorem topicsOf_spec {claim : Option (List Char)} {raws : List (List Char)} {topics : List Topic}
    (opens : topicsOf claim raws = some topics) :
    (topics.map Topic.hubKey).Nodup ∧
      ∀ topic ∈ topics, ∃ raw parsed, parseTopic raw = some parsed ∧ topic = { parsed with claim } := by
  unfold topicsOf at opens
  dsimp only at opens
  split at opens
  · cases opens
  · obtain ⟨parsed, are, rfl⟩ := Option.map_eq_some_iff.mp opens
    obtain ⟨whole, each⟩ := mapM_parseTopic are
    have distinct := wanted_nodup raws
    rw [whole, List.Nodup, List.pairwise_map] at distinct
    refine ⟨?_, fun topic mem => ?_⟩
    · rw [List.map_map, List.Nodup, List.pairwise_map]
      refine distinct.imp fun {first second} differ same => differ ?_
      rw [hubKey_injective claim same]
    · obtain ⟨topic, inParsed, rfl⟩ := List.mem_map.mp mem
      obtain ⟨raw, is⟩ := each topic inParsed
      exact ⟨raw, topic, is, rfl⟩

end Keys

section Values

variable {J : Type} [DecidableEq J] {catalog : Catalog} {topic : Topic}

def valueKeys (catalog : Catalog) (topic : Topic) : List ValueKey :=
  if topic.page = attention then catalog.groups.map fun entry => .group entry.1
  else (catalog.counts topic.page).map (fun entry => .count entry.1) ++
    (catalog.panels topic.page).map fun entry => .panel entry.1

def Answers.shown (answers : Answers J) : ValueKey → Shown J
  | .count name => .value (answers.count name).1
  | .panel name => .value (answers.panel name).1
  | .group type => .group (answers.group type).1 (answers.group type).2.1

omit [DecidableEq J] in
theorem compute_page (answers : Answers J) : (compute catalog topic answers).page = topic.page := by
  unfold compute
  split <;> rfl

omit [DecidableEq J] in
theorem compute_values (answers : Answers J) :
    (compute catalog topic answers).content.values topic.page =
      (valueKeys catalog topic).map fun key => (key, answers.shown key) := by
  unfold compute valueKeys Content.values
  by_cases isAttention : topic.page = attention
  · simp only [isAttention, if_true, List.map_map]
    rfl
  · simp only [if_neg isAttention, List.map_append, List.map_map]
    refine congrArg₂ _ rfl ?_
    split
    · next none => simp [none]
    · rw [Option.getD_some, List.map_map]
      rfl

theorem values_ne_nil (catalog : Catalog) (known : topic.page = attention ∨ topic.page ∈ pages) :
    valueKeys catalog topic ≠ [] := by
  unfold valueKeys
  split
  · simpa using catalog.groups_ne
  · next other =>
    have some := catalog.counts_ne topic.page (known.resolve_left other)
    simp [some]

omit [DecidableEq J] in
theorem content_congr {answers given : Answers J}
    (same : ∀ key ∈ valueKeys catalog topic, answers.shown key = given.shown key) :
    (compute catalog topic answers).content = (compute catalog topic given).content := by
  unfold valueKeys at same
  unfold compute
  by_cases isAttention : topic.page = attention
  · rw [if_pos isAttention] at same
    simp only [if_pos isAttention, Content.mk.injEq, true_and]
    refine List.map_congr_left fun entry mem => ?_
    have shown := same _ (List.mem_map_of_mem mem)
    simp only [Answers.shown, Shown.group.injEq] at shown
    rw [shown.1, shown.2]
  · rw [if_neg isAttention] at same
    simp only [if_neg isAttention, Content.mk.injEq, and_true]
    refine ⟨List.map_congr_left fun entry mem => ?_, ?_⟩
    · have shown := same _ (List.mem_append_left _ (List.mem_map_of_mem mem))
      simp only [Answers.shown, Shown.value.injEq] at shown
      rw [shown]
    · split
      · rfl
      · refine congrArg some (List.map_congr_left fun entry mem => ?_)
        have shown := same _ (List.mem_append_right _ (List.mem_map_of_mem mem))
        simp only [Answers.shown, Shown.value.injEq] at shown
        rw [shown]

omit [DecidableEq J] in
theorem eventOf_content (answers : Answers J) (key : Key) (changed : List String) :
    (eventOf (compute catalog topic answers) key changed).content =
      (compute catalog topic answers).content := by
  unfold eventOf
  rw [compute_page]
  unfold compute
  split <;> rfl

omit [DecidableEq J] in
theorem mem_of_lookup {key : ValueKey} {value : Shown J} {list : List (ValueKey × Shown J)}
    (found : list.lookup key = some value) : (key, value) ∈ list := by
  obtain ⟨front, back, rfl, -⟩ := List.lookup_eq_some_iff.mp found
  simp

theorem mem_changed {before : Option (List (ValueKey × Shown J))} {values : List (ValueKey × Shown J)}
    {key : ValueKey} {value : Shown J} (mem : (key, value) ∈ values)
    (differs : ∀ seen, before = some seen → (key, value) ∉ seen) :
    key.text ∈ changedKeys before values := by
  refine List.mem_map.mpr ⟨(key, value), List.mem_filter.mpr ⟨mem, ?_⟩, rfl⟩
  cases before with
  | none => rfl
  | some seen =>
    simp only [Option.all_some, ne_eq, decide_eq_true_eq]
    exact fun found => differs seen rfl (mem_of_lookup found)

theorem content_of_unchanged {answers given : Answers J}
    (unchanged : changedKeys (some ((compute catalog topic answers).content.values topic.page))
      ((compute catalog topic given).content.values topic.page) = []) :
    (compute catalog topic given).content = (compute catalog topic answers).content := by
  rw [compute_values, compute_values] at unchanged
  refine content_congr fun key mem => ?_
  by_contra other
  refine absurd unchanged (List.ne_nil_of_mem (mem_changed (List.mem_map_of_mem mem) ?_))
  rintro _ ⟨⟩ inSeen
  obtain ⟨seen, -, same⟩ := List.mem_map.mp inSeen
  obtain ⟨rfl, shown⟩ := Prod.mk.inj same
  exact other shown.symm

end Values

section Streams

variable {J : Type} [DecidableEq J] (catalog : Catalog) (topics : List Topic)

def Names (previous : Option (Event J)) (event : Event J) : Prop :=
  ∀ key value, (key, value) ∈ event.content.values event.page →
    (∀ before, previous = some before → (key, value) ∉ before.content.values before.page) →
      key.text ∈ event.changed

/-- The event shows the body: its counts and panels or groups, its place, its partial list. -/
def Shows (key : Key) (event : Event J) (body : Body J) : Prop :=
  event = eventOf body key event.changed ∧ event.page = body.page ∧ event.content = body.content ∧
    event.partialModules = body.partialModules

/-- The event shows the first of the bodies that were offered last and have the same content. -/
def Current (key : Key) (offered : List (Topic × Body J)) (event : Event J) : Prop :=
  ∃ newer queued older, offered = newer ++ queued :: older ∧ Shows key event queued.2 ∧
    ∀ later ∈ newer, later.2.content = queued.2.content

structure Holds (topic : Topic) (seen : Option (List (ValueKey × Shown J))) (pending : Option (Event J))
    (offered : List (Topic × Body J)) (delivered : List (Event J)) : Prop where
  computed : ∀ entry ∈ offered, entry.1 = topic ∧ ∃ answers, entry.2 = compute catalog topic answers
  last : seen = offered.head?.map fun latest => latest.2.content.values topic.page
  current : ∀ latest, offered.head? = some latest → ∃ event,
    pending.or delivered.head? = some event ∧ Current topic.hubKey offered event
  shown : ∀ event, pending.or delivered.head? = some event →
    seen = some (event.content.values event.page)
  waiting : ∀ event, pending = some event → Names delivered.head? event
  sent : ∀ newer event older, delivered = newer ++ event :: older → Names older.head? event
  source : ∀ event, pending = some event ∨ event ∈ delivered →
    ∃ entry ∈ offered, Shows topic.hubKey event entry.2

variable {catalog} {s s' : Stream J} {topic : Topic} {seen : Option (List (ValueKey × Shown J))}
  {pending : Option (Event J)} {offered : List (Topic × Body J)} {delivered : List (Event J)}

omit [DecidableEq J] in
theorem shows_eventOf (catalog : Catalog) (topic : Topic) (answers : Answers J) (key : Key) (changed : List String) :
    Shows key (eventOf (compute catalog topic answers) key changed) (compute catalog topic answers) :=
  ⟨rfl, rfl, eventOf_content answers key changed, rfl⟩

theorem offer_other (sub : Subscriber J) (body : Body J) {key other : Key} (differ : other ≠ key) :
    (sub.offer body key).seen other = sub.seen other ∧
      (sub.offer body key).pending other = sub.pending other := by
  unfold Subscriber.offer
  dsimp only
  split
  · exact ⟨rfl, rfl⟩
  · exact ⟨Function.update_of_ne differ _ _, Function.update_of_ne differ _ _⟩

theorem offer_cases (sub : Subscriber J) (body : Body J) (key : Key) :
    (changedKeys (sub.seen key) (body.content.values body.page) = [] ∧ sub.offer body key = sub) ∨
    (changedKeys (sub.seen key) (body.content.values body.page) ≠ [] ∧ ∃ changed,
      (∀ name ∈ changedKeys (sub.seen key) (body.content.values body.page), name ∈ changed) ∧
      (∀ earlier, sub.pending key = some earlier → ∀ name ∈ earlier.changed, name ∈ changed) ∧
      (sub.offer body key).seen key = some (body.content.values body.page) ∧
      (sub.offer body key).pending key = some (eventOf body key changed)) := by
  unfold Subscriber.offer
  dsimp only
  split
  · next none => exact .inl ⟨none, rfl⟩
  · next some =>
    refine .inr ⟨some, _, ?_, ?_, Function.update_self _ _ _, Function.update_self _ _ _⟩
    · intro name mem
      cases sub.pending key with
      | none => exact mem
      | some earlier =>
        exact Scope.mem_sorted.mpr (List.mem_dedup.mpr (List.mem_append_left _ mem))
    · intro earlier is name mem
      rw [is]
      exact Scope.mem_sorted.mpr (List.mem_dedup.mpr (List.mem_append_right _ mem))

omit [DecidableEq J] in
theorem Current.same {key : Key} {offered : List (Topic × Body J)} {event : Event J}
    {latest body : Topic × Body J} (current : Current key offered event)
    (first : offered.head? = some latest) (same : body.2.content = latest.2.content) :
    Current key (body :: offered) event := by
  obtain ⟨newer, queued, older, rfl, shows, all⟩ := current
  refine ⟨body :: newer, queued, older, rfl, shows, List.forall_mem_cons.mpr ⟨?_, all⟩⟩
  rw [same]
  cases newer with
  | nil => rw [← Option.some.inj first]
  | cons next _ =>
    rw [← Option.some.inj first]
    exact all next List.mem_cons_self

theorem Holds.unchanged (holds : Holds catalog topic seen pending offered delivered)
    (known : topic.page = attention ∨ topic.page ∈ pages) {answers : Answers J}
    (unchanged : changedKeys seen ((compute catalog topic answers).content.values topic.page) = []) :
    Holds catalog topic seen pending ((topic, compute catalog topic answers) :: offered) delivered := by
  obtain ⟨computed, isSeen, current, shown, isPending, sent, source⟩ := holds
  have all : ∀ entry ∈ (topic, compute catalog topic answers) :: offered,
      entry.1 = topic ∧ ∃ answers, entry.2 = compute catalog topic answers :=
    List.forall_mem_cons.mpr ⟨⟨rfl, answers, rfl⟩, computed⟩
  cases offered with
  | nil =>
    obtain ⟨key, mem⟩ := List.exists_mem_of_ne_nil _ (values_ne_nil catalog known)
    rw [compute_values, isSeen] at unchanged
    exact absurd unchanged (List.ne_nil_of_mem (mem_changed (List.mem_map_of_mem mem) (by simp)))
  | cons latest rest =>
    obtain ⟨-, given, isLatest⟩ := computed latest List.mem_cons_self
    simp only [List.head?_cons, Option.map_some] at isSeen
    have content : (compute catalog topic answers).content = latest.2.content := by
      rw [isSeen, isLatest] at unchanged
      rw [isLatest]
      exact content_of_unchanged unchanged
    refine ⟨all, ?_, ?_, shown, isPending, sent, ?_⟩
    · simp only [List.head?_cons, Option.map_some, content, isSeen]
    · rintro _ ⟨⟩
      obtain ⟨event, is, current⟩ := current latest rfl
      exact ⟨event, is, current.same rfl content⟩
    · intro event is
      obtain ⟨entry, mem, shows⟩ := source event is
      exact ⟨entry, List.mem_cons_of_mem _ mem, shows⟩

theorem Holds.changed (holds : Holds catalog topic seen pending offered delivered) {answers : Answers J}
    {changed : List String}
    (mine : ∀ name ∈ changedKeys seen ((compute catalog topic answers).content.values topic.page),
      name ∈ changed)
    (earlier : ∀ event, pending = some event → ∀ name ∈ event.changed, name ∈ changed) :
    Holds catalog topic (some ((compute catalog topic answers).content.values topic.page))
      (some (eventOf (compute catalog topic answers) topic.hubKey changed))
      ((topic, compute catalog topic answers) :: offered) delivered := by
  obtain ⟨computed, isSeen, current, shown, isPending, sent, source⟩ := holds
  have shows := shows_eventOf catalog topic answers topic.hubKey changed
  have values : (eventOf (compute catalog topic answers) topic.hubKey changed).content.values
      (eventOf (compute catalog topic answers) topic.hubKey changed).page =
        (compute catalog topic answers).content.values topic.page := by
    rw [shows.2.1, shows.2.2.1, compute_page]
  refine ⟨List.forall_mem_cons.mpr ⟨⟨rfl, answers, rfl⟩, computed⟩, rfl, ?_, ?_, ?_, sent, ?_⟩
  · rintro _ ⟨⟩
    exact ⟨_, rfl, [], _, _, rfl, shows, by simp⟩
  · rintro _ ⟨⟩
    rw [values]
  · rintro _ ⟨⟩ key value mem differs
    rw [values] at mem
    -- A value that the event still waiting had is named by it, any other by the offer.
    by_cases inSeen : ∃ before, seen = some before ∧ (key, value) ∈ before
    · obtain ⟨before, is, has⟩ := inSeen
      cases waiting : pending with
      | some event =>
        rw [waiting, Option.some_or] at shown
        have same := shown event rfl
        rw [is] at same
        cases same
        exact earlier event waiting _ (isPending event waiting key value has differs)
      | none =>
        rw [waiting, Option.none_or] at shown
        cases offered with
        | nil =>
          rw [is] at isSeen
          cases isSeen
        | cons latest rest =>
          obtain ⟨event, last, -⟩ := current latest rfl
          rw [waiting, Option.none_or] at last
          have same := shown event last
          rw [is] at same
          cases same
          exact absurd has (differs event last)
    · exact mine _ (mem_changed mem fun before is has => inSeen ⟨before, is, has⟩)
  · rintro event (is | mem)
    · cases is
      exact ⟨_, List.mem_cons_self, shows⟩
    · obtain ⟨entry, inOffered, shows⟩ := source event (.inr mem)
      exact ⟨entry, List.mem_cons_of_mem _ inOffered, shows⟩

omit [DecidableEq J] in
theorem Holds.drained (holds : Holds catalog topic seen pending offered delivered) :
    Holds catalog topic seen none offered (pending.toList ++ delivered) := by
  cases pending with
  | none => exact holds
  | some event =>
    obtain ⟨computed, isSeen, current, shown, isPending, sent, source⟩ := holds
    refine ⟨computed, isSeen, current, shown, by simp, ?_, ?_⟩
    · intro newer sentEvent older same
      rcases List.cons_eq_append_iff.mp same with ⟨rfl, is⟩ | ⟨tail, rfl, is⟩
      · obtain ⟨rfl, rfl⟩ := List.cons.inj is
        exact isPending _ rfl
      · exact sent tail sentEvent older is
    · rintro sentEvent (is | mem)
      · cases is
      · rcases List.mem_cons.mp mem with rfl | inDelivered
        · exact source _ (.inl rfl)
        · exact source _ (.inr inDelivered)

omit [DecidableEq J] in
theorem foldl_sent {keys : List Key} (nodup : keys.Nodup) (waiting : Key → Option (Event J))
    (sent : Key → List (Event J)) (key : Key) :
    (keys.filterMap fun key => (waiting key).map fun event => (key, event)).foldl
      (fun sent (key, event) => Function.update sent key (event :: sent key)) sent key =
        if key ∈ keys then (waiting key).toList ++ sent key else sent key := by
  induction keys generalizing sent with
  | nil => rfl
  | cons first rest ih =>
    obtain ⟨fresh, nodup⟩ := List.nodup_cons.mp nodup
    cases is : waiting first with
    | none =>
      rw [List.filterMap_cons_none (by rw [is]; rfl), ih nodup]
      by_cases mine : key = first
      · subst mine
        simp [fresh, is]
      · simp [mine]
    | some event =>
      rw [List.filterMap_cons_some (by rw [is]; rfl), List.foldl_cons, ih nodup]
      by_cases mine : key = first
      · subst mine
        simp [fresh, is]
      · simp [mine]

def Stream.Sound (catalog : Catalog) (topics : List Topic) (s : Stream J) : Prop :=
  ∀ topic ∈ topics, Holds catalog topic (s.sub.seen topic.hubKey) (s.sub.pending topic.hubKey)
    (s.offered topic.hubKey) (s.delivered topic.hubKey)

omit [DecidableEq J] in
theorem Stream.sound_start : Stream.Sound catalog topics ({} : Stream J) :=
  fun _ _ => ⟨by simp, rfl, by simp, by simp, by simp, by simp, by simp⟩

variable {topics} {claim : Option (List Char)} {raws : List (List Char)}

theorem Stream.step_cases (nonempty : claim ≠ some []) (opens : topicsOf claim raws = some topics)
    {a : Act J} (taken : Stream.Step catalog (topics.map Topic.hubKey) s a s') :
    (∃ topic answers, topic ∈ topics ∧ a = .offer topic.hubKey answers ∧ topic.claim = claim ∧
      (topic.page = attention ∨ topic.page ∈ pages) ∧
      ((answers topic = none ∧ s' = s) ∨ ∃ given, answers topic = some given ∧ s' = { s with
        sub := s.sub.offer (compute catalog topic given) topic.hubKey
        offered := Function.update s.offered topic.hubKey
          ((topic, compute catalog topic given) :: s.offered topic.hubKey) })) ∨
    (a = .drain ∧ (s.sub.drain (topics.map Topic.hubKey)).2 = s'.sub ∧ s'.offered = s.offered ∧
      ∀ topic ∈ topics,
        s'.delivered topic.hubKey = (s.sub.pending topic.hubKey).toList ++ s.delivered topic.hubKey) := by
  obtain ⟨nodup, each⟩ := topicsOf_spec opens
  cases a with
  | offer key answers =>
    simp only [Stream.Step, Stream.act] at taken
    split at taken
    · next mem =>
      obtain ⟨topic, inTopics, rfl⟩ := List.mem_map.mp mem
      obtain ⟨raw, parsed, is, rfl⟩ := each topic inTopics
      rw [page_hubKey nonempty is] at taken
      refine .inl ⟨_, answers, inTopics, rfl, rfl, (parseTopic_some is).2.2.2, ?_⟩
      cases given : answers { parsed with claim } with
      | none =>
        rw [given] at taken
        exact .inl ⟨rfl, (Option.some.inj taken).symm⟩
      | some given' =>
        rw [given] at taken
        exact .inr ⟨given', rfl, (Option.some.inj taken).symm⟩
    · cases taken
  | drain =>
    obtain rfl := Option.some.inj taken
    refine .inr ⟨rfl, rfl, rfl, fun topic mem => ?_⟩
    exact (foldl_sent nodup s.sub.pending s.delivered topic.hubKey).trans
      (if_pos (List.mem_map_of_mem mem))

theorem Stream.Sound.step (nonempty : claim ≠ some []) (opens : topicsOf claim raws = some topics)
    {a : Act J} (sound : Stream.Sound catalog topics s)
    (taken : Stream.Step catalog (topics.map Topic.hubKey) s a s') : Stream.Sound catalog topics s' := by
  have nodup := (topicsOf_spec opens).1
  obtain ⟨topic, answers, mem, rfl, -, known, ⟨-, rfl⟩ | ⟨given, -, rfl⟩⟩ | ⟨rfl, sub, offered, delivered⟩ :=
    Stream.step_cases nonempty opens taken
  · exact sound
  · intro other inTopics
    by_cases mine : other.hubKey = topic.hubKey
    · obtain rfl := List.inj_on_of_nodup_map nodup inTopics mem mine
      have holds := sound other inTopics
      dsimp only
      rw [Function.update_self]
      obtain ⟨unchanged, same⟩ | ⟨-, changed, mine, earlier, seen, pending⟩ :=
        offer_cases s.sub (compute catalog other given) other.hubKey
      · rw [same]
        rw [compute_page] at unchanged
        exact holds.unchanged known unchanged
      · rw [seen, pending, compute_page]
        rw [compute_page] at mine
        exact holds.changed mine earlier
    · obtain ⟨seen, pending⟩ := offer_other s.sub (compute catalog topic given) mine
      dsimp only
      rw [seen, pending, Function.update_of_ne mine]
      exact sound other inTopics
  · intro topic mem
    have key := List.mem_map_of_mem (f := Topic.hubKey) mem
    rw [delivered topic mem, offered, ← sub]
    simp only [Subscriber.drain, if_pos key]
    exact (sound topic mem).drained

omit [DecidableEq J] in
theorem lookup_answers (shown : ValueKey → Shown J) {keys : List ValueKey} {key : ValueKey}
    (mem : key ∈ keys) : (keys.map fun key => (key, shown key)).lookup key = some (shown key) := by
  induction keys with
  | nil => cases mem
  | cons first rest ih =>
    rw [List.map_cons, List.lookup_cons]
    by_cases mine : key = first
    · simp [mine]
    · rw [beq_false_of_ne mine]
      exact ih ((List.mem_cons.mp mem).resolve_left mine)

theorem unchanged_of_content {answers given : Answers J}
    (same : (compute catalog topic given).content = (compute catalog topic answers).content) :
    changedKeys (some ((compute catalog topic answers).content.values topic.page))
      ((compute catalog topic given).content.values topic.page) = [] := by
  rw [same, compute_values, changedKeys, List.map_eq_nil_iff, List.filter_eq_nil_iff]
  intro entry mem
  obtain ⟨key, inKeys, rfl⟩ := List.mem_map.mp mem
  simp [lookup_answers answers.shown inKeys]

/-- A drain sends the state of the bodies offered last, one event for each topic at most; a body with the
content of the one before it queues nothing. -/
def Received (topics : List Topic) (t : Runs.Step (Stream J) (Act J)) : Prop :=
  match t.label with
  | .drain => ∀ topic ∈ topics,
    t.after.sub.pending topic.hubKey = none ∧
      (t.after.delivered topic.hubKey = t.before.delivered topic.hubKey ∨
        ∃ event, t.after.delivered topic.hubKey = event :: t.before.delivered topic.hubKey) ∧
      ∀ latest, (t.after.offered topic.hubKey).head? = some latest → ∃ event,
        (t.after.delivered topic.hubKey).head? = some event ∧
          event.content = latest.2.content ∧
          event.topic = (eventOf latest.2 topic.hubKey event.changed).topic ∧
          Current topic.hubKey (t.after.offered topic.hubKey) event
  | .offer key _ => ∀ body latest older, t.before.offered key = latest :: older →
    t.after.offered key = body :: latest :: older → body.2.content = latest.2.content →
      t.after.sub = t.before.sub

omit [DecidableEq J] in
theorem Current.latest {key : Key} {event : Event J} {latest : Topic × Body J}
    (current : Current key offered event) (first : offered.head? = some latest)
    (computed : ∀ entry ∈ offered, entry.1 = topic ∧ ∃ answers, entry.2 = compute catalog topic answers) :
    event.content = latest.2.content ∧ event.topic = (eventOf latest.2 key event.changed).topic := by
  obtain ⟨newer, queued, older, rfl, ⟨is, -, content, -⟩, all⟩ := current
  obtain ⟨-, answers, isQueued⟩ := computed queued (by simp)
  obtain ⟨-, given, isLatest⟩ := computed latest (List.mem_of_head? first)
  constructor
  · rw [content]
    cases newer with
    | nil => rw [← Option.some.inj first]
    | cons next _ =>
      rw [← Option.some.inj first]
      exact (all next List.mem_cons_self).symm
  · rw [is, isQueued, isLatest]
    simp only [eventOf, compute_page]
    unfold compute
    split <;> rfl

theorem Stream.Sound.received (nonempty : claim ≠ some []) (opens : topicsOf claim raws = some topics)
    {a : Act J} (sound : Stream.Sound catalog topics s)
    (taken : Stream.Step catalog (topics.map Topic.hubKey) s a s') : Received topics ⟨s, a, s'⟩ := by
  have next := sound.step nonempty opens taken
  obtain ⟨topic, answers, mem, rfl, -, -, ⟨-, rfl⟩ | ⟨given, -, rfl⟩⟩ | ⟨rfl, sub, offered, delivered⟩ :=
    Stream.step_cases nonempty opens taken
  · intro body latest older before after
    rw [before] at after
    exact absurd (congrArg List.length after) (by simp)
  · intro body latest older before after same
    dsimp only at before after ⊢
    rw [Function.update_self, before] at after
    obtain ⟨rfl, -⟩ := List.cons.inj after
    have holds := sound topic mem
    obtain ⟨-, earlier, isLatest⟩ := holds.computed latest (by rw [before]; exact List.mem_cons_self)
    have seen := holds.last
    rw [before] at seen
    simp only [List.head?_cons, Option.map_some, isLatest] at seen
    rcases offer_cases s.sub (compute catalog topic given) topic.hubKey with ⟨-, kept⟩ | ⟨differs, -⟩
    · exact kept
    · rw [compute_page, seen] at differs
      rw [isLatest] at same
      exact absurd (unchanged_of_content same) differs
  · intro topic mem
    have holds := next topic mem
    have key := List.mem_map_of_mem (f := Topic.hubKey) mem
    have idle : s'.sub.pending topic.hubKey = none := by
      rw [← sub]
      exact if_pos key
    refine ⟨idle, ?_, fun latest first => ?_⟩
    · dsimp only
      rw [delivered topic mem]
      cases s.sub.pending topic.hubKey with
      | none => exact .inl rfl
      | some event => exact .inr ⟨event, rfl⟩
    · obtain ⟨event, is, current⟩ := holds.current latest first
      rw [idle, Option.none_or] at is
      obtain ⟨content, place⟩ := current.latest first holds.computed
      exact ⟨event, is, content, place, current⟩

end Streams

section Sample

def alarmCatalog : Catalog where
  counts _ := [("alarms.total", "/ran-nf-oam/alarms".toList), ("alarms.mtta", "/ran-nf-oam/alarms/stats".toList)]
  panels _ := []
  groups := [("critical-alarms", "/ran-nf-oam/alarms".toList)]
  unscoped _ := []
  counts_ne _ _ := List.cons_ne_nil _ _
  groups_ne := List.cons_ne_nil _ _

def alarmTopic : Topic := ⟨"alarms".toList, "alarms".toList, none, none, none⟩

/-- Seven alarms, none acknowledged in the window, so the mean time is null whether or not its path
answers. -/
def alarmAnswers (answered : Bool) (_ : Topic) : Option (Answers (Option Nat)) :=
  some ⟨0, fun name => if name = "alarms.total" then (some 7, true) else (none, answered),
    fun _ => (none, true), fun _ => (none, none, true)⟩

def alarmActs : List (Act (Option Nat)) :=
  [.offer alarmTopic.hubKey (alarmAnswers true), .drain, .offer alarmTopic.hubKey (alarmAnswers false),
    .drain]

def alarmStream (acts : List (Act (Option Nat))) : Stream (Option Nat) :=
  acts.foldl (Runs.nextOf (Stream.act alarmCatalog [alarmTopic.hubKey])) {}

def turnedActs : List (Act (Option Nat)) :=
  let eight : Topic → Option (Answers (Option Nat)) := fun _ =>
    some ⟨0, fun _ => (some 8, true), fun _ => (none, true), fun _ => (none, none, true)⟩
  [.offer alarmTopic.hubKey (alarmAnswers true), .drain, .offer alarmTopic.hubKey eight,
    .offer alarmTopic.hubKey (alarmAnswers true), .drain]

end Sample

end Smo.GuiBff.Events
