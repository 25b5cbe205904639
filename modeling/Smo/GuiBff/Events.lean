import Smo.GuiBff.Scoping
import Smo.Lib.Runs
import Smo.Lib.Text

/-! One open stream of the console's events (`gui-bff/app/events.py`): its topics, the bodies that are
computed for them (`summary.py`), and what is offered to it and sent. -/
namespace Smo.GuiBff.Events

abbrev Key := List Char

def topicPrefix : List Char := "summary:".toList

def claimSep : Char := '|'

def attention : List Char := "attention".toList

/-- The pages of `PAGES`. -/
def pages : List (List Char) :=
  ["nav", "dashboard", "alarms", "rapps", "approvals", "decisions", "infrastructure", "configuration",
    "software", "intents", "aiml"].map String.toList

def scopeChar (c : Char) : Bool := c.isAlphanum || c = '.' || c = '_' || c = '-'

/-- `SCOPE_RE.match`, whose `$` also stands before a last line break. -/
def scopeName (name : List Char) : Bool :=
  let body := if name.getLast? = some '\n' then name.dropLast else name
  0 < body.length && body.length ≤ 64 && body.all scopeChar

structure Topic where
  key : Key
  page : List Char
  region : Option (List Char)
  siteCluster : Option (List Char)
  claim : Option (List Char)
  deriving DecidableEq

/-- `Topic.hub_key`. -/
def Topic.hubKey (topic : Topic) : Key :=
  match topic.claim with
  | none => topic.key
  | some claim => topic.key ++ claimSep :: claim

/-- `parse_topic`. -/
def parseTopic (raw : List Char) : Option Topic :=
  if topicPrefix.isPrefixOf raw = false then none
  else
    let key := raw.drop topicPrefix.length
    let (page, scope) := Text.partition '@' key
    if page ≠ attention ∧ page ∉ pages then none
    else match scope with
      | none => some ⟨key, page, none, none, none⟩
      | some scope =>
        let (region, cluster) := Text.partition '/' scope
        if scopeName region && cluster.all scopeName then some ⟨key, page, some region, cluster, none⟩
        else none

/-- What a body counts by: a count, a panel (`panel.` before its name) or an attention group. No count's
name begins with `panel.`. -/
inductive ValueKey
  | count (name : String)
  | panel (name : String)
  | group (type : String)
  deriving DecidableEq

def ValueKey.text : ValueKey → String
  | .count name => name
  | .panel name => "panel." ++ name
  | .group type => type

variable {J : Type}

inductive Shown (J : Type)
  | value (value : J)
  | group (total items : J)
  deriving DecidableEq

structure Group (J : Type) where
  type : String
  total : J
  items : J

structure Content (J : Type) where
  counts : List (String × J)
  panels : Option (List (String × J))
  groups : List (Group J)

abbrev PlaceScope := Option (List Char) × Option (List Char)

structure Body (J : Type) where
  page : List Char
  computedAt : Nat
  content : Content J
  partialModules : List String
  scope : Option PlaceScope
  unscoped : List String

structure Event (J : Type) where
  page : List Char
  content : Content J
  changed : List String
  computedAt : Nat
  partialModules : List String
  topic : Option (Key × Option PlaceScope × List String)

/-- `PAGES`, `PANELS` and `ATTENTION`: each name with the path it is asked at, no page without a count
and some group; and the names that a scope does not narrow. -/
structure Catalog where
  counts : List Char → List (String × List Char)
  panels : List Char → List (String × List Char)
  groups : List (String × List Char)
  unscoped : Topic → List String
  counts_ne : ∀ page ∈ pages, counts page ≠ []
  groups_ne : groups ≠ []

structure Answers (J : Type) where
  computedAt : Nat
  count : String → J × Bool
  panel : String → J × Bool
  group : String → J × J × Bool

def sortedSet (values : List String) : List String := sorted values.dedup

/-- `path.split("/")[1]` -/
def moduleOf (path : List Char) : String :=
  String.ofList (Text.partition '/' ((Text.partition '/' path).2.getD [])).1

/-- `scope_view`. -/
def scopeView (topic : Topic) : Option PlaceScope :=
  if topic.region = none ∧ topic.siteCluster = none then none
  else some (topic.region, topic.siteCluster)

def failed (answered : String → Bool) (entries : List (String × List Char)) : List String :=
  (entries.filter fun entry => !answered entry.1).map fun entry => moduleOf entry.2

/-- `compute` and `compute_attention`. -/
def compute (catalog : Catalog) (topic : Topic) (answers : Answers J) : Body J :=
  let scope := scopeView topic
  let unscoped := if scope = none then [] else catalog.unscoped topic
  if topic.page = attention then
    { page := topic.page
      computedAt := answers.computedAt
      content :=
        { counts := []
          panels := none
          groups := catalog.groups.map fun entry =>
            ⟨entry.1, (answers.group entry.1).1, (answers.group entry.1).2.1⟩ }
      partialModules := sortedSet (failed (fun type => (answers.group type).2.2) catalog.groups)
      scope, unscoped }
  else
    let counts := catalog.counts topic.page
    let panels := catalog.panels topic.page
    { page := topic.page
      computedAt := answers.computedAt
      content :=
        { counts := counts.map fun entry => (entry.1, (answers.count entry.1).1)
          panels := if panels = [] then none
            else some (panels.map fun entry => (entry.1, (answers.panel entry.1).1))
          groups := [] }
      partialModules := sortedSet (failed (fun name => (answers.count name).2) counts ++
        failed (fun name => (answers.panel name).2) panels)
      scope, unscoped }

/-- `EventHub._page`: the body for a key, where the computation did not raise. -/
def page (catalog : Catalog) (key : Key) (answers : Topic → Option (Answers J)) : Option (Topic × Body J) :=
  let (base, claim) := Text.partition claimSep key
  match parseTopic (topicPrefix ++ base) with
  | none => none
  | some topic =>
    let topic := { topic with claim := claim.filter (· ≠ []) }
    (answers topic).map fun answers => (topic, compute catalog topic answers)

def Content.values (page : List Char) (content : Content J) : List (ValueKey × Shown J) :=
  if page = attention then
    content.groups.map fun group => (.group group.type, .group group.total group.items)
  else
    (content.counts.map fun entry => (.count entry.1, .value entry.2)) ++
      (content.panels.getD []).map fun entry => (.panel entry.1, .value entry.2)

/-- `_Subscriber`: what each topic was last offered, and what waits to be sent. -/
structure Subscriber (J : Type) where
  seen : Key → Option (List (ValueKey × Shown J)) := fun _ => none
  pending : Key → Option (Event J) := fun _ => none

variable [DecidableEq J]

def changedKeys (before : Option (List (ValueKey × Shown J))) (values : List (ValueKey × Shown J)) :
    List String :=
  (values.filter fun (key, value) => before.all fun before => before.lookup key ≠ some value).map
    fun entry => entry.1.text

def eventOf (body : Body J) (key : Key) (changed : List String) : Event J :=
  let shown := (Text.partition claimSep key).1
  { page := body.page
    content :=
      if body.page = attention then ⟨[], none, body.content.groups⟩
      else ⟨body.content.counts, body.content.panels, []⟩
    changed
    computedAt := body.computedAt
    partialModules := body.partialModules
    topic :=
      if body.scope ≠ none ∨ shown ≠ body.page then
        some (topicPrefix ++ shown, body.scope, body.unscoped)
      else none }

namespace Subscriber

/-- `_Subscriber.offer`. -/
def offer (s : Subscriber J) (body : Body J) (key : Key) : Subscriber J :=
  let values := body.content.values body.page
  let changed := changedKeys (s.seen key) values
  if changed = [] then s
  else
    let changed := match s.pending key with
      | none => changed
      | some earlier => sortedSet (changed ++ earlier.changed)
    { seen := Function.update s.seen key (some values)
      pending := Function.update s.pending key (some (eventOf body key changed)) }

/-- `_Subscriber.drain`, over the stream's keys. -/
def drain (s : Subscriber J) (keys : List Key) : List (Key × Event J) × Subscriber J :=
  (keys.filterMap fun key => (s.pending key).map fun event => (key, event),
    { s with pending := fun key => if key ∈ keys then none else s.pending key })

end Subscriber

/-! A stream from its opening, with what it was offered and what was sent, by key, the newest first. -/

def maxTopics : Nat := 4

def wanted (topics : List (List Char)) : List (List Char) :=
  topics.foldl (fun out topic => if topic ≠ [] ∧ topic ∉ out then out ++ [topic] else out) []

/-- The topics of a stream that opens, for its user's stored claim; `none` is the 400. -/
def topicsOf (claim : Option (List Char)) (topics : List (List Char)) : Option (List Topic) :=
  let wanted := wanted topics
  if wanted = [] ∨ maxTopics < wanted.length then none
  else (wanted.mapM parseTopic).map fun parsed => parsed.map fun topic => { topic with claim }

structure Stream (J : Type) where
  sub : Subscriber J := {}
  offered : Key → List (Topic × Body J) := fun _ => []
  delivered : Key → List (Event J) := fun _ => []

inductive Act (J : Type)
  | offer (key : Key) (answers : Topic → Option (Answers J))
  | drain

namespace Stream

variable (catalog : Catalog) (keys : List Key)

def act (s : Stream J) : Act J → Option (Stream J)
  | .offer key answers =>
    if key ∈ keys then
      match page catalog key answers with
      | none => some s
      | some (topic, body) => some { s with
          sub := s.sub.offer body key
          offered := Function.update s.offered key ((topic, body) :: s.offered key) }
    else none
  | .drain =>
    let (events, sub) := s.sub.drain keys
    some { s with
      sub
      delivered := events.foldl (fun sent (key, event) => Function.update sent key (event :: sent key))
        s.delivered }

def Step (s : Stream J) (a : Act J) (s' : Stream J) : Prop := s.act catalog keys a = some s'

end Stream

end Smo.GuiBff.Events
