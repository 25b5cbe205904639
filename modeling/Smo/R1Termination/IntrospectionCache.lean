import Smo.R1Termination.Forwarding
import Mathlib.Data.Rat.Defs
import Mathlib.Algebra.Order.Ring.Rat
import Mathlib.Tactic.Linarith

/-! The gateway's cache of introspection answers (`r1-termination/app/introspection_cache.py`):
a bounded map in insertion order, with the generation that counts its evictions. Times are exact
seconds, and `κ` stands for the digest of a token. -/
namespace Smo.R1Termination

def negativeSeconds : Rat := 5

/-- One cached answer: when it expires, and the caller, or that the token is not active. -/
structure Entry where
  expires : Rat
  answer : Option Caller

inductive Eviction
  | invoker (invokerId : Str)
  | all

/-- The eviction deletes an entry with this answer. An inactive answer names no invoker. -/
def Eviction.deletes : Eviction → Option Caller → Bool
  | .invoker invokerId, answer => answer.any (·.invokerId = invokerId)
  | .all, _ => true

/-- The cache: one entry a key, oldest first, and never more than it has room for. -/
structure IntrospectionCache (κ : Type) where
  maxEntries : Nat
  entries : List (κ × Entry)
  generation : Nat
  room : 0 < maxEntries
  distinct : (entries.map Prod.fst).Nodup
  fits : entries.length ≤ maxEntries

namespace IntrospectionCache

variable {κ : Type}

def new (maxEntries : Int) : IntrospectionCache κ where
  maxEntries := (max 1 maxEntries).toNat
  entries := []
  generation := 0
  room := by omega
  distinct := List.nodup_nil
  fits := Nat.zero_le _

/-- The cache with only the entries that satisfy `kept`. -/
def keep (cache : IntrospectionCache κ) (kept : κ × Entry → Bool) : IntrospectionCache κ :=
  { cache with
    entries := cache.entries.filter kept
    distinct := cache.distinct.sublist (List.filter_sublist.map _)
    fits := (List.length_filter_le _ _).trans cache.fits }

/-- The entries without the expired ones (`_drop_expired`). -/
def dropExpired (clock : Rat) (entries : List (κ × Entry)) : List (κ × Entry) :=
  entries.filter fun item => clock < item.2.expires

def shrink (maxEntries : Nat) (clock : Rat) (entries : List (κ × Entry)) : List (κ × Entry) :=
  if maxEntries < entries.length then
    let live := dropExpired clock entries
    live.drop (live.length - maxEntries)
  else entries

theorem shrink_sublist (maxEntries : Nat) (clock : Rat) (entries : List (κ × Entry)) :
    (shrink maxEntries clock entries).Sublist entries := by
  unfold shrink
  split
  · exact (List.drop_sublist _ _).trans List.filter_sublist
  · exact List.Sublist.refl _

theorem shrink_fits (maxEntries : Nat) (clock : Rat) (entries : List (κ × Entry)) :
    (shrink maxEntries clock entries).length ≤ maxEntries := by
  unfold shrink
  split
  · simp only [List.length_drop]
    omega
  · omega

/-- The eviction after a revocation (`evict_invoker`, `clear`). -/
def evict (cache : IntrospectionCache κ) (eviction : Eviction) : IntrospectionCache κ :=
  { cache.keep fun item => !eviction.deletes item.2.answer with
    generation := cache.generation + 1 }

theorem mem_evict {cache : IntrospectionCache κ} {eviction : Eviction} {item : κ × Entry}
    (mem : item ∈ (cache.evict eviction).entries) :
    item ∈ cache.entries ∧ eviction.deletes item.2.answer = false := by
  obtain ⟨was, kept⟩ := List.mem_filter.mp mem
  exact ⟨was, Bool.not_eq_true' _ ▸ kept⟩

variable [DecidableEq κ]

def renewed (entries : List (κ × Entry)) (key : κ) (entry : Entry) : List (κ × Entry) :=
  entries.filter (·.1 ≠ key) ++ [(key, entry)]

theorem renewed_distinct {entries : List (κ × Entry)} (distinct : (entries.map Prod.fst).Nodup)
    (key : κ) (entry : Entry) : ((renewed entries key entry).map Prod.fst).Nodup := by
  rw [renewed, List.map_append, List.nodup_append]
  refine ⟨distinct.sublist (List.filter_sublist.map _), List.nodup_singleton _, ?_⟩
  intro other mem _ last same
  obtain ⟨item, kept, rfl⟩ := List.mem_map.mp mem
  have differs := of_decide_eq_true (List.mem_filter.mp kept).2
  exact differs (same.trans (List.mem_singleton.mp last))

def get (cache : IntrospectionCache κ) (clock : Rat) (key : κ) :
    IntrospectionCache κ × Option (Option Caller) :=
  match cache.entries.find? (·.1 = key) with
  | none => (cache, none)
  | some (_, entry) =>
    if entry.expires ≤ clock then (cache.keep (·.1 ≠ key), none) else (cache, some entry.answer)

/-- Remembers an answer, unless a revocation evicted since `generation` was read. -/
def put (cache : IntrospectionCache κ) (clock : Rat) (key : κ) (answer : Option Caller)
    (ttl : Rat) (generation : Nat) : IntrospectionCache κ :=
  if ttl ≤ 0 ∨ generation ≠ cache.generation then cache
  else
    let entries := renewed cache.entries key ⟨clock + ttl, answer⟩
    { cache with
      entries := shrink cache.maxEntries clock entries
      distinct := (renewed_distinct cache.distinct key _).sublist
        ((shrink_sublist cache.maxEntries clock entries).map _)
      fits := shrink_fits cache.maxEntries clock entries }

section Lemmas

variable {cache : IntrospectionCache κ} {clock : Rat} {key : κ} {item : κ × Entry}

theorem get_generation : (cache.get clock key).1.generation = cache.generation := by
  unfold get
  split
  · rfl
  · split <;> rfl

theorem mem_get (mem : item ∈ (cache.get clock key).1.entries) : item ∈ cache.entries := by
  unfold get at mem
  split at mem
  · exact mem
  · split at mem
    · exact (List.mem_filter.mp mem).1
    · exact mem

theorem get_answer {answer : Option Caller} (found : (cache.get clock key).2 = some answer) :
    ∃ entry, (key, entry) ∈ cache.entries ∧ clock < entry.expires ∧ entry.answer = answer := by
  unfold get at found
  split at found
  · cases found
  · next named entry first =>
    split at found
    · cases found
    · next live =>
      have same : named = key := by simpa using List.find?_some first
      have mem := List.mem_of_find?_eq_some first
      refine ⟨entry, ?_, not_le.mp live, Option.some.inj found⟩
      simpa only [← same] using mem

theorem put_generation (answer : Option Caller) (ttl : Rat) (generation : Nat) :
    (cache.put clock key answer ttl generation).generation = cache.generation := by
  unfold put
  split <;> rfl

theorem mem_put {answer : Option Caller} {ttl : Rat} {generation : Nat}
    (mem : item ∈ (cache.put clock key answer ttl generation).entries) :
    item ∈ cache.entries ∨
      (0 < ttl ∧ generation = cache.generation ∧ item = (key, ⟨clock + ttl, answer⟩)) := by
  unfold put at mem
  split at mem
  · exact .inl mem
  · next stored =>
    obtain ⟨positive, current⟩ := not_or.mp stored
    rcases List.mem_append.mp ((shrink_sublist _ _ _).subset mem) with earlier | new
    · exact .inl (List.mem_filter.mp earlier).1
    · exact .inr ⟨not_le.mp positive, not_not.mp current, List.mem_singleton.mp new⟩

end Lemmas

end IntrospectionCache

end Smo.R1Termination
