/-! Labelled transition systems and their runs, with the invariant rule for runs
whose steps all meet a guard. Nothing here names a program. -/
namespace Smo.Runs

variable {σ ι : Type}

structure Step (σ ι : Type) where
  before : σ
  label : ι
  after : σ

/-- The runs from `start`, each with the transitions it took, oldest first. -/
inductive Run (step : σ → ι → σ → Prop) (start : σ) : List (Step σ ι) → σ → Prop
  | refl : Run step start [] start
  | snoc (run : Run step start trace s) (taken : step s label s') :
      Run step start (trace ++ [⟨s, label, s'⟩]) s'

namespace Run

variable {step : σ → ι → σ → Prop} {start s s' : σ} {trace : List (Step σ ι)} {label : ι}

theorem invariant_of_guarded (run : Run step start trace s) (inv : σ → Prop)
    (guard : σ → ι → Prop) (init : inv start)
    (keeps : ∀ s label s', inv s → guard s label → step s label s' → inv s')
    (guarded : ∀ t ∈ trace, guard t.before t.label) : inv s := by
  induction run with
  | refl => exact init
  | snoc run taken ih =>
    have earlier := ih fun t mem => guarded t (List.mem_append_left _ mem)
    exact keeps _ _ _ earlier (guarded _ (List.mem_append_right _ (List.mem_singleton.mpr rfl))) taken

theorem invariant_of_history (run : Run step start trace s) (inv : List (Step σ ι) → σ → Prop)
    (init : inv [] start)
    (keeps : ∀ trace s label s', inv trace s → step s label s' →
      inv (trace ++ [⟨s, label, s'⟩]) s') : inv trace s := by
  induction run with
  | refl => exact init
  | snoc _ taken ih => exact keeps _ _ _ _ ih taken

theorem invariant_of_guarded_history (run : Run step start trace s)
    (inv : List (Step σ ι) → σ → Prop) (guard : List (Step σ ι) → σ → ι → Prop) (init : inv [] start)
    (keeps : ∀ trace s label s', inv trace s → guard trace s label → step s label s' →
      inv (trace ++ [⟨s, label, s'⟩]) s')
    (guarded : ∀ earlier t later, trace = earlier ++ t :: later → guard earlier t.before t.label) :
    inv trace s := by
  induction run with
  | refl => exact init
  | snoc run taken ih =>
    refine keeps _ _ _ _ (ih fun earlier t later same => ?_) (guarded _ _ [] rfl) taken
    exact guarded earlier t _ (by rw [same, List.append_assoc, List.cons_append])

theorem split {earlier later : List (Step σ ι)} {t : Step σ ι} (run : Run step start trace s)
    (same : trace = earlier ++ t :: later) :
    Run step start earlier t.before ∧ step t.before t.label t.after := by
  induction run generalizing later with
  | refl => simp at same
  | snoc run taken ih =>
    rcases List.eq_nil_or_concat later with rfl | ⟨more, last, rfl⟩
    · obtain ⟨rfl, last⟩ := List.append_inj' same rfl
      cases last
      exact ⟨run, taken⟩
    · rw [List.concat_eq_append, ← List.cons_append, ← List.append_assoc] at same
      exact ih (List.append_inj' same rfl).1

theorem rest {earlier later : List (Step σ ι)} {t : Step σ ι} (run : Run step start trace s)
    (same : trace = earlier ++ t :: later) : Run step t.after later s := by
  induction run generalizing later with
  | refl => simp at same
  | snoc run taken ih =>
    rcases List.eq_nil_or_concat later with rfl | ⟨more, last, rfl⟩
    · obtain ⟨rfl, last⟩ := List.append_inj' same rfl
      cases last
      exact .refl
    · rw [List.concat_eq_append, ← List.cons_append, ← List.append_assoc] at same
      obtain ⟨before, isLast⟩ := List.append_inj' same rfl
      cases isLast
      rw [List.concat_eq_append]
      exact (ih before).snoc taken

theorem append {later : List (Step σ ι)} (run : Run step start trace s)
    (goesOn : Run step s later s') : Run step start (trace ++ later) s' := by
  induction goesOn with
  | refl => simpa using run
  | snoc _ taken ih =>
    rw [← List.append_assoc]
    exact ih.snoc taken

theorem invariant (run : Run step start trace s) (inv : σ → Prop) (init : inv start)
    (keeps : ∀ s label s', inv s → step s label s' → inv s') : inv s :=
  run.invariant_of_guarded inv (fun _ _ => True) init
    (fun s label s' holds _ taken => keeps s label s' holds taken) (fun _ _ => trivial)

theorem transitions_of_guarded (run : Run step start trace s) (inv : σ → Prop)
    (guard : σ → ι → Prop) (init : inv start)
    (keeps : ∀ s label s', inv s → guard s label → step s label s' → inv s')
    (property : Step σ ι → Prop)
    (holds : ∀ s label s', inv s → guard s label → step s label s' → property ⟨s, label, s'⟩)
    (guarded : ∀ t ∈ trace, guard t.before t.label) : ∀ t ∈ trace, property t := by
  induction run with
  | refl => exact fun t mem => absurd mem List.not_mem_nil
  | snoc run taken ih =>
    have earlier := fun t mem => guarded t (List.mem_append_left _ mem)
    have reached := run.invariant_of_guarded inv guard init keeps earlier
    intro t mem
    rcases List.mem_append.mp mem with inEarlier | last
    · exact ih earlier t inEarlier
    · obtain rfl := List.mem_singleton.mp last
      exact holds _ _ _ reached (guarded _ mem) taken

theorem transitions (run : Run step start trace s) (inv : σ → Prop) (init : inv start)
    (keeps : ∀ s label s', inv s → step s label s' → inv s')
    (property : Step σ ι → Prop)
    (holds : ∀ s label s', inv s → step s label s' → property ⟨s, label, s'⟩) :
    ∀ t ∈ trace, property t :=
  run.transitions_of_guarded inv (fun _ _ => True) init
    (fun s label s' hs _ taken => keeps s label s' hs taken) property
    (fun s label s' hs _ taken => holds s label s' hs taken) (fun _ _ => trivial)

theorem later_of_guarded (run : Run step start trace s) (inv : σ → Prop) (guard : σ → ι → Prop)
    (init : inv start)
    (keeps : ∀ s label s', inv s → guard s label → step s label s' → inv s')
    (later : σ → σ → Prop) (refl : ∀ s, later s s)
    (trans : ∀ s s' s'', later s s' → later s' s'' → later s s'')
    (steps : ∀ s label s', inv s → guard s label → step s label s' → later s s')
    (guarded : ∀ t ∈ trace, guard t.before t.label) : ∀ t ∈ trace, later t.after s := by
  induction run with
  | refl => exact fun t mem => absurd mem List.not_mem_nil
  | snoc run taken ih =>
    have earlier := fun t mem => guarded t (List.mem_append_left _ mem)
    have reached := run.invariant_of_guarded inv guard init keeps earlier
    intro t mem
    rcases List.mem_append.mp mem with inEarlier | last
    · exact trans _ _ _ (ih earlier t inEarlier) (steps _ _ _ reached
        (guarded _ (List.mem_append_right _ (List.mem_singleton.mpr rfl))) taken)
    · obtain rfl := List.mem_singleton.mp last
      exact refl _

end Run

section Lists

/-- The transitions of a system that answers each label in one way. -/
def stepsOf (next : σ → ι → σ) (s : σ) : List ι → List (Step σ ι)
  | [] => []
  | label :: rest => ⟨s, label, next s label⟩ :: stepsOf next (next s label) rest

variable {step : σ → ι → σ → Prop} {next : σ → ι → σ} {start s : σ} {trace : List (Step σ ι)}

theorem Run.followed {labels : List ι} (run : Run step start trace s)
    (takes : ∀ s, ∀ label ∈ labels, step s label (next s label)) :
    Run step start (trace ++ stepsOf next s labels) (labels.foldl next s) := by
  induction labels generalizing s trace with
  | nil => simpa [stepsOf] using run
  | cons label rest ih =>
    have first := run.snoc (takes s label List.mem_cons_self)
    have later := ih first fun s other mem => takes s other (List.mem_cons_of_mem _ mem)
    simpa [stepsOf] using later

theorem label_mem {labels : List ι} {t : Step σ ι} (mem : t ∈ stepsOf next s labels) :
    t.label ∈ labels := by
  induction labels generalizing s with
  | nil => cases mem
  | cons label rest ih =>
    rcases List.mem_cons.mp mem with rfl | later
    · exact List.mem_cons_self
    · exact List.mem_cons_of_mem _ (ih later)

theorem run_of_taken {labels : List ι} (run : Run step start trace s)
    (taken : ∀ t ∈ stepsOf next s labels, step t.before t.label t.after) :
    Run step start (trace ++ stepsOf next s labels) (labels.foldl next s) := by
  induction labels generalizing s trace with
  | nil => simpa [stepsOf] using run
  | cons label rest ih =>
    have first := run.snoc (taken _ List.mem_cons_self)
    have later := ih first fun t mem => taken t (List.mem_cons_of_mem _ mem)
    simpa [stepsOf] using later

theorem run_follow {labels : List ι}
    (takes : ∀ s, ∀ label ∈ labels, step s label (next s label)) :
    Run step start (stepsOf next start labels) (labels.foldl next start) :=
  Run.refl.followed takes

section Enabled

variable {act : σ → ι → Option σ}

/-- Where an act leads; one that is not enabled changes nothing. -/
def nextOf (act : σ → ι → Option σ) (s : σ) (label : ι) : σ := (act s label).getD s

/-- Each of the acts is enabled in its turn. -/
def enabled (act : σ → ι → Option σ) (s : σ) (labels : List ι) : Bool :=
  (stepsOf (nextOf act) s labels).all fun t => (act t.before t.label).isSome

theorem nextOf_taken {labels : List ι} {t : Step σ ι} (mem : t ∈ stepsOf (nextOf act) s labels) :
    t.after = nextOf act t.before t.label := by
  induction labels generalizing s with
  | nil => cases mem
  | cons label rest ih =>
    rcases List.mem_cons.mp mem with rfl | later
    · rfl
    · exact ih later

theorem run_enabled {labels : List ι} (ok : enabled act s labels = true) :
    Run (fun s label s' => act s label = some s') s (stepsOf (nextOf act) s labels)
      (labels.foldl (nextOf act) s) := by
  refine run_of_taken .refl fun t mem => ?_
  obtain ⟨s', taken⟩ := Option.isSome_iff_exists.mp (List.all_eq_true.mp ok t mem)
  rw [nextOf_taken mem, nextOf, taken]
  rfl

end Enabled

end Lists

end Smo.Runs
