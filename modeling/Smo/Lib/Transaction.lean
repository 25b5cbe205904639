/-! Computations that keep their state when they raise, with rules of pre- and
postconditions for both ways they end, and transactions on a database with effects on a
world outside it. A session sees the database with its own changes; what it has not
committed when it ends is gone, while its effects on the world stay. Nothing here names a
program. -/
namespace Smo.Transaction

variable {σ ε α β : Type}

/-- From a state with `pre` the computation answers with `post`, or raises with `raises`. -/
def Ensures (pre : σ → Prop) (x : EStateM ε σ α) (post : α → σ → Prop) (raises : σ → Prop) :
    Prop :=
  ∀ s, pre s →
    match x s with
    | .ok value s' => post value s'
    | .error _ s' => raises s'

theorem bind_ok {x : EStateM ε σ α} {f : α → EStateM ε σ β} {s s' : σ} {result : β}
    (h : (x >>= f) s = .ok result s') :
    ∃ value between, x s = .ok value between ∧ f value between = .ok result s' := by
  simp only [Bind.bind, EStateM.bind] at h
  cases hx : x s with
  | ok value between =>
    rw [hx] at h
    exact ⟨value, between, rfl, h⟩
  | error exc between =>
    rw [hx] at h
    cases h

theorem bind_congr {x : EStateM ε σ α} {f g : α → EStateM ε σ β} {s : σ}
    (h : ∀ value between, x s = .ok value between → f value between = g value between) :
    (x >>= f) s = (x >>= g) s := by
  simp only [Bind.bind, EStateM.bind]
  cases hx : x s with
  | ok value between => exact h value between hx
  | error exc between => rfl

namespace Ensures

variable {pre pre' : σ → Prop} {x y : EStateM ε σ α} {post post' : α → σ → Prop}
  {raises raises' : σ → Prop}

theorem ok (h : Ensures pre x post raises) {s s' : σ} {value : α} (holds : pre s)
    (answered : x s = .ok value s') : post value s' := by
  have ended := h s holds
  rw [answered] at ended
  exact ended

theorem error (h : Ensures pre x post raises) {s s' : σ} {exc : ε} (holds : pre s)
    (raised : x s = .error exc s') : raises s' := by
  have ended := h s holds
  rw [raised] at ended
  exact ended

theorem of_cases (ok : ∀ s value s', pre s → x s = .ok value s' → post value s')
    (error : ∀ s exc s', pre s → x s = .error exc s' → raises s') :
    Ensures pre x post raises := by
  intro s holds
  cases hx : x s with
  | ok value s' => exact ok s value s' holds hx
  | error exc s' => exact error s exc s' holds hx

theorem bind {f : α → EStateM ε σ β} {mid : α → σ → Prop} {post : β → σ → Prop}
    (first : Ensures pre x mid raises) (rest : ∀ value, Ensures (mid value) (f value) post raises) :
    Ensures pre (x >>= f) post raises := by
  intro s holds
  simp only [Bind.bind, EStateM.bind]
  cases hx : x s with
  | ok value s' => exact rest value s' (first.ok holds hx)
  | error exc s' => exact first.error holds hx

theorem weaken (h : Ensures pre x post raises) (stronger : ∀ s, pre' s → pre s)
    (weaker : ∀ value s, post value s → post' value s) (raised : ∀ s, raises s → raises' s) :
    Ensures pre' x post' raises' :=
  of_cases (fun _ _ _ holds hx => weaker _ _ (h.ok (stronger _ holds) hx))
    fun _ _ _ holds hx => raised _ (h.error (stronger _ holds) hx)

theorem of_pre (h : Ensures pre x post raises) (stronger : ∀ s, pre' s → pre s) :
    Ensures pre' x post raises :=
  h.weaken stronger (fun _ _ holds => holds) fun _ holds => holds

theorem ite {p : Prop} [Decidable p] (yes : p → Ensures pre x post raises)
    (no : ¬p → Ensures pre y post raises) : Ensures pre (if p then x else y) post raises := by
  split
  next holds => exact yes holds
  next fails => exact no fails

theorem of_fact {p : Prop} (h : p → Ensures pre x post raises) :
    Ensures (fun s => p ∧ pre s) x post raises :=
  fun s holds => h holds.1 s holds.2

theorem each (h : ∀ s, pre s → Ensures (· = s) x post raises) : Ensures pre x post raises :=
  fun s holds => h s holds s rfl

end Ensures

/-- `Ensures` for a caller that tells the exceptions apart. -/
def Answers (pre : σ → Prop) (x : EStateM ε σ α) (post : α → σ → Prop) (raises : ε → σ → Prop) :
    Prop :=
  ∀ s, pre s →
    match x s with
    | .ok value s' => post value s'
    | .error exc s' => raises exc s'

namespace Answers

variable {pre pre' : σ → Prop} {x : EStateM ε σ α} {post post' : α → σ → Prop}
  {raises raises' : ε → σ → Prop}

theorem bind {f : α → EStateM ε σ β} {mid : α → σ → Prop} {post : β → σ → Prop}
    (first : Answers pre x mid raises) (rest : ∀ value, Answers (mid value) (f value) post raises) :
    Answers pre (x >>= f) post raises := by
  intro s holds
  have ended := first s holds
  simp only [Bind.bind, EStateM.bind]
  cases hx : x s with
  | ok value s' =>
    rw [hx] at ended
    exact rest value s' ended
  | error exc s' =>
    rw [hx] at ended
    exact ended

theorem weaken (h : Answers pre x post raises) (stronger : ∀ s, pre' s → pre s)
    (weaker : ∀ value s, post value s → post' value s)
    (raised : ∀ exc s, raises exc s → raises' exc s) : Answers pre' x post' raises' := by
  intro s holds
  have ended := h s (stronger s holds)
  cases hx : x s with
  | ok value s' =>
    rw [hx] at ended
    exact weaker _ _ ended
  | error exc s' =>
    rw [hx] at ended
    exact raised _ _ ended

end Answers

section Sessions

variable {δ ω : Type}

structure Session (δ ω : Type) where
  working : δ
  committed : δ
  world : ω

abbrev Txn (δ ω ε : Type) := EStateM ε (Session δ ω)

def commit : Txn δ ω ε Unit := modify fun s => { s with committed := s.working }

def rollback : Txn δ ω ε Unit := modify fun s => { s with working := s.committed }

def database : Txn δ ω ε δ := do return (← get).working

def update (f : δ → δ) : Txn δ ω ε Unit := modify fun s => { s with working := f s.working }

/-- What happens in the world outside; the database has no part in it. -/
def outside (x : EStateM ε ω α) : Txn δ ω ε α := fun s =>
  match x s.world with
  | .ok value w => .ok value { s with world := w }
  | .error exc w => .error exc { s with world := w }

/-- What a transaction answers in a session of its own, and what it leaves behind. -/
def run (x : Txn δ ω ε α) (stored : δ) (world : ω) : Except ε α × δ × ω :=
  match x ⟨stored, stored, world⟩ with
  | .ok value s => (.ok value, s.committed, s.world)
  | .error exc s => (.error exc, s.committed, s.world)

namespace Ensures

variable {raises : Session δ ω → Prop}

theorem rollback {s : Session δ ω} : Ensures (· = s) (Transaction.rollback : Txn δ ω ε Unit)
    (fun _ t => t = { s with working := s.committed }) raises := by
  rintro _ rfl
  rfl

theorem update {s : Session δ ω} (f : δ → δ) :
    Ensures (· = s) (Transaction.update f : Txn δ ω ε Unit)
      (fun _ t => t = { s with working := f s.working }) raises := by
  rintro _ rfl
  rfl

theorem reads {s : Session δ ω} {f : δ → Txn δ ω ε α} {post : α → Session δ ω → Prop}
    (h : Ensures (· = s) (f s.working) post raises) :
    Ensures (· = s) (Transaction.database >>= f) post raises := by
  rintro _ rfl
  exact h _ rfl

theorem outside {x : EStateM ε ω α} {pre : ω → Prop} {mid : α → ω → Prop} {lost : ω → Prop}
    {post : α → Session δ ω → Prop} {from_ : Session δ ω → Prop} (h : Ensures pre x mid lost)
    (start : ∀ s, from_ s → pre s.world)
    (answers : ∀ s value w, from_ s → mid value w → post value { s with world := w })
    (raised : ∀ s w, from_ s → lost w → raises { s with world := w }) :
    Ensures from_ (Transaction.outside x : Txn δ ω ε α) post raises := by
  intro s holds
  unfold Transaction.outside
  cases hx : x s.world with
  | ok value w => exact answers s value w holds (h.ok (start s holds) hx)
  | error exc w => exact raised s w holds (h.error (start s holds) hx)

theorem run {x : Txn δ ω ε α} {pre : Session δ ω → Prop} {kept : δ → ω → Prop}
    (h : Ensures pre x (fun _ s => kept s.committed s.world) fun s => kept s.committed s.world)
    {stored : δ} {world : ω} (holds : pre ⟨stored, stored, world⟩) :
    kept (Transaction.run x stored world).2.1 (Transaction.run x stored world).2.2 := by
  unfold Transaction.run
  cases hx : x ⟨stored, stored, world⟩ with
  | ok value s => exact h.ok holds hx
  | error exc s => exact h.error holds hx

end Ensures

end Sessions

end Smo.Transaction
