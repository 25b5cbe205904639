import Smo.Shared.RateLimit

/-! What the two stores of buckets let through. Each gives the answers of one bucket for each
caller whose clock only moves forward: the table while no purged bucket is made again before it
would have been full, the memory while stamps do not go back. -/
namespace Smo.RateLimit

open TokenBucket (Bucket Kept available take wait)

variable {rate burst : Rat} {maxTracked : Nat} {caller other : String} {now : Rat} {ops : List Op}

abbrev View := String → Option (Bucket Rat)

section Ideal

variable (rate burst : Rat)

def answer (held : Option (Bucket Rat)) (now : Rat) : Option Int :=
  if TokenBucket.allowed rate burst held now then none
  else some (wait rate (take rate burst held now).tokens)

def View.taken (view : View) (caller : String) (now : Rat) : View :=
  Function.update view caller (some (take rate burst (view caller) now))

def View.history (view : View) : List Op → List Taken
  | [] => []
  | .take caller now :: rest =>
    ⟨caller, now, answer rate burst (view caller) now⟩ ::
      View.history (view.taken rate burst caller now) rest
  | .purge _ :: rest => View.history view rest

end Ideal

theorem allowed_cons (taken : Taken) (history : List Taken) :
    allowed caller (taken :: history) =
      (if taken.caller = caller ∧ taken.answer = none then 1 else 0) + allowed caller history := by
  unfold allowed
  rw [List.filter_cons]
  split <;> simp_all [Nat.add_comm]

theorem stamps_take (caller other : String) (now : Rat) (ops : List Op) :
    stamps caller (.take other now :: ops) =
      if other = caller then now :: stamps caller ops else stamps caller ops := by
  by_cases mine : other = caller <;> simp [stamps, mine]

theorem View.allowed_history (view : View) (caller : String) (ops : List Op) :
    allowed caller (view.history rate burst ops) =
      TokenBucket.admitted rate burst (view caller) (stamps caller ops) := by
  induction ops generalizing view with
  | nil => rfl
  | cons op rest ih =>
    cases op with
    | purge now => exact ih view
    | take other now =>
      have step := ih (view.taken rate burst other now)
      rw [stamps_take, View.history, allowed_cons, step]
      by_cases mine : other = caller
      · subst mine
        rw [if_pos rfl, View.taken, Function.update_self, TokenBucket.admitted]
        congr 1
        by_cases yes : TokenBucket.allowed rate burst (view other) now <;> simp [answer, yes]
      · rw [if_neg mine, if_neg fun both => mine both.1, View.taken,
          Function.update_of_ne (Ne.symm mine), Nat.zero_add]

section Shared

variable {rows : List RateBucket} {row : RateBucket} {s : Store}

def rowAfter (rate burst : Rat) (held : Option RateBucket) (caller : String) (now : Rat) :
    RateBucket :=
  match held with
  | some row => row.taken rate burst now
  | none =>
    { caller, tokens := if 1 ≤ burst then burst - 1 else burst, refilledAt := now
      lastAllowed := 1 ≤ burst }

theorem rowAfter_bucket (held : Option RateBucket) :
    (rowAfter rate burst held caller now).bucket =
      take rate burst (held.map RateBucket.bucket) now := by
  cases held <;> rfl

theorem rowAfter_answer (held : Option RateBucket) :
    (if (rowAfter rate burst held caller now).lastAllowed then none
      else some (retryAfter rate (rowAfter rate burst held caller now).tokens)) =
      answer rate burst (held.map RateBucket.bucket) now := by
  cases held <;> rfl

theorem takeShared_row (rows : List RateBucket) (caller : String) (now : Rat) :
    (takeShared rate burst rows caller now).2 =
      rowAfter rate burst (Table.get (·.caller) rows caller) caller now := by
  unfold takeShared
  split <;> rename_i found <;> rw [found] <;> rfl

theorem takeShared_get (rows : List RateBucket) (caller other : String) (now : Rat) :
    Table.get (·.caller) (takeShared rate burst rows caller now).1 other =
      if other = caller then some (rowAfter rate burst (Table.get (·.caller) rows caller) caller now)
      else Table.get (·.caller) rows other := by
  unfold takeShared
  split
  · rename_i row found
    dsimp only
    rw [Table.get_modify (RateBucket.taken rate burst now) fun _ => rfl]
    by_cases mine : other = caller
    · subst mine
      simp [found, rowAfter]
    · rw [if_neg (Ne.symm mine), if_neg mine]
  · rename_i found
    rw [Table.get_snoc found, found]
    simp only [rowAfter, eq_comm]

theorem sharedTake_get (forward : 0 < rate) (rows : List RateBucket) (caller other : String)
    (now : Rat) :
    Table.get (·.caller) (sharedTake rate burst rows caller now).1 other =
      if other = caller then some (rowAfter rate burst (Table.get (·.caller) rows caller) caller now)
      else Table.get (·.caller) rows other := by
  simp only [sharedTake, if_neg (not_le.mpr forward), takeShared_get]

theorem sharedTake_answer (forward : 0 < rate) (rows : List RateBucket) (caller : String)
    (now : Rat) :
    (sharedTake rate burst rows caller now).2 =
      answer rate burst ((Table.get (·.caller) rows caller).map RateBucket.bucket) now := by
  simp only [sharedTake, if_neg (not_le.mpr forward), takeShared_row, rowAfter_answer]

theorem sharedTake_keyed {rows : List RateBucket} (forward : 0 < rate)
    (keyed : (rows.map (·.caller)).Nodup) :
    ((sharedTake rate burst rows caller now).1.map (·.caller)).Nodup := by
  simp only [sharedTake, if_neg (not_le.mpr forward)]
  unfold takeShared
  split
  · dsimp only
    rwa [Table.keys_modify (RateBucket.taken rate burst now) fun _ => rfl]
  · rename_i found
    exact Table.nodup_snoc keyed found

theorem purge_get (keyed : (rows.map (·.caller)).Nodup) (other : String) (now : Rat) :
    Table.get (·.caller) (purge rate burst rows now) other =
      (Table.get (·.caller) rows other).filter fun row => ¬ row.full rate burst now :=
  Table.get_filter keyed _

theorem View.kept_taken {kept view : View}
    (k : ∀ caller, Kept rate burst now (kept caller) (view caller)) (caller other : String) :
    Kept rate burst now (kept.taken rate burst caller now other)
      (view.taken rate burst caller now other) := by
  simp only [View.taken, Function.update_apply]
  split
  · rw [(k caller).take_eq]
    exact .whole
  · exact k other

theorem View.taken_past {view : View} (past : ∀ caller, ∀ b ∈ view caller, b.clock ≤ now)
    (caller other : String) : ∀ b ∈ view.taken rate burst caller now other, b.clock ≤ now := by
  simp only [View.taken, Function.update_apply]
  split
  · rintro b ⟨⟩
    cases found : view caller with
    | none => exact le_rfl
    | some b => exact max_le (past caller b found) le_rfl
  · exact past other

theorem answer_kept {kept held : Option (Bucket Rat)} (k : Kept rate burst now kept held) :
    answer rate burst kept now = answer rate burst held now := by
  unfold answer TokenBucket.allowed
  rw [k.available_eq, k.take_eq]

namespace Store

def held (s : Store) : View := fun caller => (s.row caller).map (·.bucket)

def view (s : Store) : View := fun caller => ((s.row caller).or (s.purged caller)).map (·.bucket)

theorem step_keyed (forward : 0 < rate) (keyed : (s.rows.map (·.caller)).Nodup) (op : Op) :
    ((s.step rate burst op).rows.map (·.caller)).Nodup := by
  cases op with
  | take caller now => exact sharedTake_keyed forward keyed
  | purge now => exact keyed.sublist (List.filter_sublist.map _)

theorem view_purge (keyed : (s.rows.map (·.caller)).Nodup) (now : Rat) :
    (s.step rate burst (.purge now)).view = s.view := by
  funext caller
  have rows : (s.step rate burst (.purge now)).row caller =
      (s.row caller).filter fun row => ¬ row.full rate burst now := purge_get keyed caller now
  have purged : (s.step rate burst (.purge now)).purged caller =
      ((s.row caller).filter (·.full rate burst now)).or (s.purged caller) := rfl
  simp only [view, rows, purged]
  cases s.row caller with
  | none => rfl
  | some row => cases full : row.full rate burst now <;> simp [Option.filter, full]

theorem view_take (forward : 0 < rate) (caller : String) (now : Rat) :
    (s.step rate burst (.take caller now)).view =
      Function.update s.view caller
        (some (take rate burst ((s.row caller).map RateBucket.bucket) now)) := by
  funext other
  have rows := @sharedTake_get rate burst forward s.rows caller other now
  simp only [view, Store.row, step, rows]
  by_cases mine : other = caller
  · subst mine
    simp [rowAfter_bucket]
  · simp [mine, view, Store.row]

theorem kept_of_restartsFull (restarts : s.restartsFull rate burst (.take caller now)) :
    Kept rate burst now ((s.row caller).map RateBucket.bucket) (s.view caller) := by
  simp only [restartsFull, decide_eq_true_eq] at restarts
  unfold view
  cases found : s.row caller with
  | some row => exact .whole
  | none =>
    simp only [found, Option.isSome_none, Bool.false_eq_true, false_or, Option.all_eq_true] at restarts
    cases gone : s.purged caller with
    | none => exact .whole
    | some row =>
      obtain ⟨past, full⟩ : row.refilledAt ≤ now ∧
          burst ≤ row.tokens + (now - row.refilledAt) * rate := by
        simpa using restarts row gone
      refine .forgotten past ?_
      change burst ≤ row.tokens + max 0 (now - row.refilledAt) * rate
      rwa [max_eq_right (sub_nonneg.mpr past)]

theorem history_eq_view (forward : 0 < rate) (keyed : (s.rows.map (·.caller)).Nodup)
    (restarts : s.alwaysRestartsFull rate burst ops) :
    s.history rate burst ops = s.view.history rate burst ops := by
  induction ops generalizing s with
  | nil => rfl
  | cons op rest ih =>
    obtain ⟨first, restarts⟩ := Bool.and_eq_true_iff.mp restarts
    have later := ih (step_keyed forward keyed op) restarts
    cases op with
    | purge now =>
      rw [view_purge keyed] at later
      exact later
    | take caller now =>
      have k := kept_of_restartsFull first
      rw [view_take forward, k.take_eq] at later
      simp only [history, View.history, sharedTake_answer forward]
      rw [later, ← View.taken, ← answer_kept k]
      rfl

theorem held_take (forward : 0 < rate) (caller : String) (now : Rat) :
    (s.step rate burst (.take caller now)).held = s.held.taken rate burst caller now := by
  funext other
  have rows := @sharedTake_get rate burst forward s.rows caller other now
  simp only [held, Store.row, step, rows, View.taken, Function.update_apply]
  split
  · rw [Option.map_some, rowAfter_bucket]
  · rfl

theorem held_purge (keyed : (s.rows.map (·.caller)).Nodup)
    (past : ∀ caller, ∀ b ∈ s.held caller, b.clock ≤ now) (caller : String) :
    Kept rate burst now ((s.step rate burst (.purge now)).held caller) (s.held caller) := by
  have rows : (s.step rate burst (.purge now)).row caller =
      (s.row caller).filter fun row => ¬ row.full rate burst now := purge_get keyed caller now
  have past := past caller
  simp only [held, rows] at past ⊢
  cases found : s.row caller with
  | none => exact .whole
  | some row =>
    cases full : row.full rate burst now with
    | false => simpa [Option.filter, full] using .whole
    | true =>
      have gone : (some row).filter (fun row => ¬ row.full rate burst now) = none := by
        simp [Option.filter, full]
      rw [gone]
      exact .forgotten (past row.bucket (by rw [found]; rfl)) (of_decide_eq_true full)

theorem history_eq_of_sorted {view : View} {last : Rat} (forward : 0 < rate)
    (keyed : (s.rows.map (·.caller)).Nodup) (past : ∀ caller, ∀ b ∈ view caller, b.clock ≤ last)
    (kept : ∀ caller, Kept rate burst last (s.held caller) (view caller))
    (sorted : (ops.map Op.stamp).Pairwise (· ≤ ·)) (after : ∀ op ∈ ops, last ≤ op.stamp) :
    s.history rate burst ops = view.history rate burst ops := by
  induction ops generalizing s view last with
  | nil => rfl
  | cons op rest ih =>
    obtain ⟨next, later⟩ := List.pairwise_cons.mp sorted
    have order : last ≤ op.stamp := after op List.mem_cons_self
    have after' : ∀ other ∈ rest, op.stamp ≤ other.stamp := fun other mem =>
      next _ (List.mem_map.mpr ⟨other, mem, rfl⟩)
    have k := fun caller => (kept caller).onwards forward order
    have past' : ∀ caller, ∀ b ∈ view caller, b.clock ≤ op.stamp := fun caller b mem =>
      (past caller b mem).trans order
    have keyed' := @step_keyed rate burst s forward keyed op
    cases op with
    | purge now =>
      refine ih keyed' past' (fun caller => ?_) later after'
      exact (held_purge keyed (fun c b mem => past' c b ((k c).mem mem)) caller).trans (k caller)
    | take caller now =>
      have rest_eq : (s.step rate burst (.take caller now)).history rate burst rest =
          (view.taken rate burst caller now).history rate burst rest := ih keyed'
        (View.taken_past past' caller)
        (fun other => by rw [held_take forward]; exact View.kept_taken k caller other) later after'
      simp only [history, View.history, sharedTake_answer forward, rest_eq]
      rw [← show answer rate burst (s.held caller) now = answer rate burst (view caller) now from
        answer_kept (k caller)]
      rfl

theorem after_keyed (forward : 0 < rate) (keyed : (s.rows.map (·.caller)).Nodup) (ops : List Op) :
    ((s.after rate burst ops).rows.map (·.caller)).Nodup := by
  induction ops generalizing s with
  | nil => exact keyed
  | cons op rest ih => exact ih (step_keyed forward keyed op)

theorem after_held (forward : 0 < rate) (keyed : (s.rows.map (·.caller)).Nodup)
    (idle : ∀ now, Op.take caller now ∉ ops) :
    (s.after rate burst ops).held caller = s.held caller ∨
      (s.after rate burst ops).held caller = none := by
  induction ops generalizing s with
  | nil => exact .inl rfl
  | cons op rest ih =>
    have later := @ih (s.step rate burst op) (step_keyed forward keyed op)
      fun now mem => idle now (List.mem_cons_of_mem _ mem)
    have first : (s.step rate burst op).held caller = s.held caller ∨
        (s.step rate burst op).held caller = none := by
      cases op with
      | take other now =>
        have apart : caller ≠ other := by
          rintro rfl
          exact idle now List.mem_cons_self
        rw [held_take forward, View.taken, Function.update_of_ne apart]
        exact .inl rfl
      | purge now =>
        have rows : (s.step rate burst (.purge now)).row caller =
            (s.row caller).filter fun row => ¬ row.full rate burst now := purge_get keyed caller now
        simp only [held, rows]
        cases s.row caller with
        | none => exact .inl rfl
        | some row => cases full : row.full rate burst now <;> simp [Option.filter, full]
    rcases later with same | gone
    · rcases first with same' | gone
      · exact .inl (same.trans same')
      · exact .inr (same.trans gone)
    · exact .inr gone

theorem allowed_after_refusal (forward : 0 < rate) (size : 1 ≤ burst)
    (keyed : (s.rows.map (·.caller)).Nodup) {w : Int}
    (refused : (sharedTake rate burst s.rows caller now).2 = some w)
    (current : ∀ row, s.row caller = some row → row.refilledAt ≤ now)
    (idle : ∀ later, Op.take caller later ∉ ops) :
    (sharedTake rate burst ((s.step rate burst (.take caller now)).after rate burst ops).rows caller
      (now + w)).2 = none := by
  rw [sharedTake_answer forward] at refused ⊢
  have kept := @after_held rate burst caller ops (s.step rate burst (.take caller now)) forward
    (step_keyed forward keyed _) idle
  rw [held_take forward, View.taken, Function.update_self] at kept
  have waited : w = wait rate (take rate burst (s.held caller) now).tokens := by
    unfold answer at refused
    split at refused
    · cases refused
    · exact (Option.some.inj refused).symm
  have clock : (take rate burst (s.held caller) now).clock ≤ now := by
    cases found : s.row caller with
    | none => simp [take, held, found]
    | some row => simpa [take, held, found, RateBucket.bucket] using current row found
  have now_allowed : TokenBucket.allowed rate burst
      (((s.step rate burst (.take caller now)).after rate burst ops).held caller) (now + w) := by
    rcases kept with same | gone
    · rw [same, waited]
      exact TokenBucket.allowed_after_wait forward size clock
    · rw [gone]
      exact decide_eq_true size
  exact if_pos now_allowed

end Store

end Shared

section Local

variable {buckets : List Entry}

def localHeld (buckets : List Entry) : View := fun caller =>
  (Table.get (·.caller) buckets caller).map (·.bucket)

theorem setBucket_get (buckets : List Entry) (entry : Entry) (other : String) :
    Table.get (·.caller) (setBucket buckets entry) other =
      if entry.caller = other then some entry else Table.get (·.caller) buckets other := by
  unfold setBucket
  split
  · rename_i old found
    rw [Table.get_modify _ (by simp)]
    split
    · rename_i mine
      have key := Table.key_of_get found
      rw [← mine, found, Option.map_some, key]
    · rfl
  · rename_i found
    exact Table.get_snoc found

theorem setBucket_keyed {entry : Entry} (keyed : (buckets.map (·.caller)).Nodup) :
    ((setBucket buckets entry).map (·.caller)).Nodup := by
  unfold setBucket
  split
  · rwa [Table.keys_modify _ (by simp)]
  · rename_i found
    exact Table.nodup_snoc keyed found

theorem localTokens (past : ∀ b ∈ localHeld buckets caller, b.clock ≤ now) :
    let entry := (Table.get (·.caller) buckets caller).getD ⟨caller, burst, now⟩
    min burst (entry.tokens + (now - entry.last) * rate) =
      available rate burst (localHeld buckets caller) now := by
  unfold localHeld at past ⊢
  cases found : Table.get (·.caller) buckets caller with
  | none => simp [available]
  | some entry =>
    have past : entry.last ≤ now := past entry.bucket (by rw [found]; rfl)
    simp [available, Bucket.accrued, Entry.bucket, past]

theorem localTake_answer (forward : 0 < rate)
    (past : ∀ b ∈ localHeld buckets caller, b.clock ≤ now) :
    (localTake rate burst maxTracked buckets caller now).2 =
      answer rate burst (localHeld buckets caller) now := by
  have tokens := @localTokens rate burst caller now buckets past
  simp only [localTake, if_neg (not_le.mpr forward), tokens]
  by_cases enough : 1 ≤ available rate burst (localHeld buckets caller) now
  · simp [answer, TokenBucket.allowed, enough]
  · simp [answer, TokenBucket.allowed, enough, retryAfter, wait, take]

theorem localSet_held (past : ∀ b ∈ localHeld buckets caller, b.clock ≤ now) :
    localHeld (setBucket buckets
        ⟨caller, (take rate burst (localHeld buckets caller) now).tokens, now⟩) =
      (localHeld buckets).taken rate burst caller now := by
  funext other
  have clock : (take rate burst (localHeld buckets caller) now).clock = now := by
    cases found : localHeld buckets caller with
    | none => rfl
    | some b => exact max_eq_right (past b found)
  have bucket : (Entry.mk caller (take rate burst (localHeld buckets caller) now).tokens now).bucket =
      take rate burst (localHeld buckets caller) now := congrArg (Bucket.mk _) clock.symm
  simp only [View.taken, Function.update_apply]
  rw [localHeld, setBucket_get]
  by_cases mine : other = caller
  · rw [if_pos mine.symm, if_pos mine, Option.map_some, bucket]
  · rw [if_neg (Ne.symm mine), if_neg mine, localHeld]

theorem localTake_spec (forward : 0 < rate) (buckets : List Entry) (caller : String) (now : Rat) :
    ∃ tokens,
      (localTake rate burst maxTracked buckets caller now).1 =
        (if maxTracked < (setBucket buckets ⟨caller, tokens, now⟩).length then
          forgetIdle rate burst (setBucket buckets ⟨caller, tokens, now⟩) now
        else setBucket buckets ⟨caller, tokens, now⟩) ∧
      ((∀ b ∈ localHeld buckets caller, b.clock ≤ now) →
        tokens = (take rate burst (localHeld buckets caller) now).tokens) ∧
      ∀ w, (localTake rate burst maxTracked buckets caller now).2 = some w →
        w = retryAfter rate tokens := by
  simp only [localTake, if_neg (not_le.mpr forward)]
  generalize entry : (Table.get (·.caller) buckets caller).getD ⟨caller, burst, now⟩ = e
  have same := fun past => entry ▸ @localTokens rate burst caller now buckets past
  by_cases enough : 1 ≤ min burst (e.tokens + (now - e.last) * rate)
  · refine ⟨min burst (e.tokens + (now - e.last) * rate) - 1, ?_, fun past => ?_, ?_⟩
    · rw [if_pos enough]
    · simp only [take]
      rw [← same past, if_pos enough]
    · simp [enough]
  · refine ⟨min burst (e.tokens + (now - e.last) * rate), ?_, fun past => ?_, ?_⟩
    · rw [if_neg enough]
    · simp only [take]
      rw [← same past, if_neg enough]
    · rw [if_neg enough]
      rintro w ⟨⟩
      rfl

theorem localTake_keyed (forward : 0 < rate) (keyed : (buckets.map (·.caller)).Nodup) :
    ((localTake rate burst maxTracked buckets caller now).1.map (·.caller)).Nodup := by
  obtain ⟨tokens, is, -⟩ := @localTake_spec rate burst maxTracked forward buckets caller now
  rw [is]
  split
  · exact (setBucket_keyed keyed).sublist (List.filter_sublist.map _)
  · exact setBucket_keyed keyed

theorem forgetIdle_kept (keyed : (buckets.map (·.caller)).Nodup)
    (past : ∀ caller, ∀ b ∈ localHeld buckets caller, b.clock ≤ now) (caller : String) :
    Kept rate burst now (localHeld (forgetIdle rate burst buckets now) caller)
      (localHeld buckets caller) := by
  have past := past caller
  have rows : Table.get (·.caller) (forgetIdle rate burst buckets now) caller =
      (Table.get (·.caller) buckets caller).filter fun entry =>
        ¬ burst ≤ entry.tokens + (now - entry.last) * rate := Table.get_filter keyed _
  unfold localHeld at past ⊢
  rw [rows]
  cases found : Table.get (·.caller) buckets caller with
  | none => exact .whole
  | some entry =>
    by_cases full : burst ≤ entry.tokens + (now - entry.last) * rate
    · have past : entry.last ≤ now := past entry.bucket (by rw [found]; rfl)
      simp only [Option.filter, full, not_true_eq_false, decide_false, Bool.false_eq_true, if_false]
      refine .forgotten past ?_
      change burst ≤ entry.tokens + max 0 (now - entry.last) * rate
      rwa [max_eq_right (sub_nonneg.mpr past)]
    · simp only [Option.filter, full, not_false_eq_true, decide_true, if_true]
      exact .whole

theorem localTake_kept (forward : 0 < rate) (keyed : (buckets.map (·.caller)).Nodup)
    (past : ∀ caller, ∀ b ∈ localHeld buckets caller, b.clock ≤ now) (other : String) :
    Kept rate burst now (localHeld (localTake rate burst maxTracked buckets caller now).1 other)
      ((localHeld buckets).taken rate burst caller now other) := by
  obtain ⟨tokens, is, same, -⟩ := @localTake_spec rate burst maxTracked forward buckets caller now
  rw [is, same (past caller), ← localSet_held (past caller)]
  split
  · refine forgetIdle_kept (setBucket_keyed keyed) ?_ other
    rw [localSet_held (past caller)]
    exact View.taken_past past caller
  · exact .whole

theorem localHistory_eq_of_sorted {view : View} {last : Rat} (forward : 0 < rate)
    (keyed : (buckets.map (·.caller)).Nodup) (past : ∀ caller, ∀ b ∈ view caller, b.clock ≤ last)
    (kept : ∀ caller, Kept rate burst last (localHeld buckets caller) (view caller))
    (sorted : (ops.map Op.stamp).Pairwise (· ≤ ·)) (after : ∀ op ∈ ops, last ≤ op.stamp) :
    localHistory rate burst maxTracked buckets ops = view.history rate burst ops := by
  induction ops generalizing buckets view last with
  | nil => rfl
  | cons op rest ih =>
    obtain ⟨next, later⟩ := List.pairwise_cons.mp sorted
    have order : last ≤ op.stamp := after op List.mem_cons_self
    have after' : ∀ other ∈ rest, op.stamp ≤ other.stamp := fun other mem =>
      next _ (List.mem_map.mpr ⟨other, mem, rfl⟩)
    have k := fun caller => (kept caller).onwards forward order
    have past' : ∀ caller, ∀ b ∈ view caller, b.clock ≤ op.stamp := fun caller b mem =>
      (past caller b mem).trans order
    cases op with
    | purge now => exact ih keyed past' k later after'
    | take caller now =>
      have heldPast : ∀ caller, ∀ b ∈ localHeld buckets caller, b.clock ≤ now :=
        fun c b mem => past' c b ((k c).mem mem)
      have rest_eq : localHistory rate burst maxTracked
            (localTake rate burst maxTracked buckets caller now).1 rest =
          (view.taken rate burst caller now).history rate burst rest :=
        ih (localTake_keyed forward keyed) (View.taken_past past' caller)
          (fun other => (localTake_kept forward keyed heldPast other).trans
            (View.kept_taken k caller other)) later after'
      simp only [localHistory, View.history, localTake_answer forward (heldPast caller), rest_eq]
      rw [← show answer rate burst (localHeld buckets caller) now =
        answer rate burst (view caller) now from answer_kept (k caller)]

theorem localAfter_keyed (forward : 0 < rate) (keyed : (buckets.map (·.caller)).Nodup)
    (ops : List Op) :
    ((localAfter rate burst maxTracked buckets ops).map (·.caller)).Nodup := by
  induction ops generalizing buckets with
  | nil => exact keyed
  | cons op rest ih =>
    cases op with
    | take other now => exact ih (localTake_keyed forward keyed)
    | purge now => exact ih keyed

theorem forgetIdle_get (keyed : (buckets.map (·.caller)).Nodup) (caller : String) (now : Rat) :
    localHeld (forgetIdle rate burst buckets now) caller = localHeld buckets caller ∨
      localHeld (forgetIdle rate burst buckets now) caller = none := by
  have rows : Table.get (·.caller) (forgetIdle rate burst buckets now) caller =
      (Table.get (·.caller) buckets caller).filter fun entry =>
        ¬ burst ≤ entry.tokens + (now - entry.last) * rate := Table.get_filter keyed _
  unfold localHeld
  rw [rows]
  cases Table.get (·.caller) buckets caller with
  | none => exact .inl rfl
  | some entry =>
    by_cases full : burst ≤ entry.tokens + (now - entry.last) * rate <;> simp [Option.filter, full]

theorem localTake_held (forward : 0 < rate) (keyed : (buckets.map (·.caller)).Nodup)
    (apart : caller ≠ other) :
    localHeld (localTake rate burst maxTracked buckets other now).1 caller = localHeld buckets caller ∨
      localHeld (localTake rate burst maxTracked buckets other now).1 caller = none := by
  obtain ⟨tokens, is, -⟩ := @localTake_spec rate burst maxTracked forward buckets other now
  have set : localHeld (setBucket buckets ⟨other, tokens, now⟩) caller = localHeld buckets caller := by
    simp [localHeld, setBucket_get, Ne.symm apart]
  rw [is]
  split
  · rw [← set]
    exact forgetIdle_get (setBucket_keyed keyed) caller now
  · exact .inl set

theorem localAfter_held (forward : 0 < rate) (keyed : (buckets.map (·.caller)).Nodup)
    (idle : ∀ now, Op.take caller now ∉ ops) :
    localHeld (localAfter rate burst maxTracked buckets ops) caller = localHeld buckets caller ∨
      localHeld (localAfter rate burst maxTracked buckets ops) caller = none := by
  induction ops generalizing buckets with
  | nil => exact .inl rfl
  | cons op rest ih =>
    have idle' : ∀ now, Op.take caller now ∉ rest := fun now mem =>
      idle now (List.mem_cons_of_mem _ mem)
    cases op with
    | purge now => exact ih keyed idle'
    | take other now =>
      have apart : caller ≠ other := by
        rintro rfl
        exact idle now List.mem_cons_self
      have later := @ih (localTake rate burst maxTracked buckets other now).1
        (localTake_keyed forward keyed) idle'
      rcases later with same | gone
      · rcases @localTake_held rate burst maxTracked caller other now buckets forward keyed apart with
          same' | gone
        · exact .inl (same.trans same')
        · exact .inr (same.trans gone)
      · exact .inr gone

theorem local_allowed_after_refusal (forward : 0 < rate) (size : 1 ≤ burst)
    (keyed : (buckets.map (·.caller)).Nodup) {w : Int}
    (refused : (localTake rate burst maxTracked buckets caller now).2 = some w)
    (idle : ∀ later, Op.take caller later ∉ ops) :
    (localTake rate burst maxTracked (localAfter rate burst maxTracked
      (localTake rate burst maxTracked buckets caller now).1 ops) caller (now + w)).2 = none := by
  obtain ⟨tokens, is, -, waited⟩ := @localTake_spec rate burst maxTracked forward buckets caller now
  obtain rfl : w = wait rate tokens := waited w refused
  have keyed' : ((localTake rate burst maxTracked buckets caller now).1.map (·.caller)).Nodup :=
    localTake_keyed forward keyed
  have set : localHeld (setBucket buckets ⟨caller, tokens, now⟩) caller = some ⟨tokens, now⟩ := by
    simp [localHeld, setBucket_get, Entry.bucket]
  have first : localHeld (localTake rate burst maxTracked buckets caller now).1 caller =
        some ⟨tokens, now⟩ ∨
      localHeld (localTake rate burst maxTracked buckets caller now).1 caller = none := by
    rw [is, ← set]
    split
    · exact forgetIdle_get (setBucket_keyed keyed) caller now
    · exact .inl rfl
  have held : localHeld (localAfter rate burst maxTracked
        (localTake rate burst maxTracked buckets caller now).1 ops) caller = some ⟨tokens, now⟩ ∨
      localHeld (localAfter rate burst maxTracked
        (localTake rate burst maxTracked buckets caller now).1 ops) caller = none := by
    rcases @localAfter_held rate burst maxTracked caller ops _ forward keyed' idle with same | gone
    · rw [same]
      exact first
    · exact .inr gone
  have order : now ≤ now + wait rate tokens := by
    have : (1 : Rat) ≤ wait rate tokens := by exact_mod_cast le_max_left 1 _
    linarith
  have past : ∀ b ∈ localHeld (localAfter rate burst maxTracked
      (localTake rate burst maxTracked buckets caller now).1 ops) caller,
      b.clock ≤ now + wait rate tokens := by
    rcases held with is | is <;> rw [is]
    · rintro b ⟨⟩
      exact order
    · rintro b ⟨⟩
  rw [localTake_answer forward past]
  refine if_pos ?_
  rcases held with is | is <;> rw [is]
  · have past : (Bucket.mk tokens now).clock ≤ now := le_rfl
    exact TokenBucket.allowed_after_wait forward size past
  · exact decide_eq_true size

end Local

/-- From empty stores. A caller is let through no more often than its budget allows, where every
purged bucket that is made again would have been full; while no stamp goes back the two stores
answer alike; and the wait that a refusal tells is enough, unless the table refuses a take that
is stamped before the clock of its bucket. -/
theorem budget_kept (forward : 0 < rate) (size : 1 ≤ burst) (maxTracked : Nat) (ops : List Op) :
    (∀ caller earliest latest, Store.alwaysRestartsFull rate burst {} ops → stamps caller ops ≠ [] →
      (∀ now ∈ stamps caller ops, earliest ≤ now ∧ now ≤ latest) →
      (allowed caller (Store.history rate burst {} ops) : Rat) ≤ burst + rate * (latest - earliest)) ∧
    ((ops.map Op.stamp).Pairwise (· ≤ ·) →
      Store.history rate burst {} ops = localHistory rate burst maxTracked [] ops) ∧
    (∀ caller now w idle, (∀ later, Op.take caller later ∉ idle) →
      let s := Store.after rate burst {} ops
      (∀ row, s.row caller = some row → row.refilledAt ≤ now) →
      (sharedTake rate burst s.rows caller now).2 = some w →
      (sharedTake rate burst ((s.step rate burst (.take caller now)).after rate burst idle).rows caller
        (now + w)).2 = none) ∧
    ∀ caller now w idle, (∀ later, Op.take caller later ∉ idle) →
      let buckets := localAfter rate burst maxTracked [] ops
      (localTake rate burst maxTracked buckets caller now).2 = some w →
      (localTake rate burst maxTracked (localAfter rate burst maxTracked
        (localTake rate burst maxTracked buckets caller now).1 idle) caller (now + w)).2 = none := by
  have noRows : (([] : List RateBucket).map (·.caller)).Nodup := List.nodup_nil
  have noBuckets : (([] : List Entry).map (·.caller)).Nodup := List.nodup_nil
  refine ⟨fun caller earliest latest restarts some_stamp within => ?_, fun sorted => ?_,
    fun caller now w idle alone => ?_, fun caller now w idle alone => ?_⟩
  · rw [Store.history_eq_view forward noRows restarts, View.allowed_history]
    exact TokenBucket.admitted_le forward size some_stamp within
  · cases ops with
    | nil => rfl
    | cons op rest =>
      have after : ∀ other ∈ op :: rest, op.stamp ≤ other.stamp := fun other mem => by
        rcases List.mem_cons.mp mem with rfl | mem
        · exact le_rfl
        · exact List.rel_of_pairwise_cons sorted (List.mem_map.mpr ⟨other, mem, rfl⟩)
      rw [@Store.history_eq_of_sorted rate burst (op :: rest) {} (fun _ => none) op.stamp forward noRows
          (by simp) (fun _ => .whole) sorted after,
        @localHistory_eq_of_sorted rate burst maxTracked (op :: rest) [] (fun _ => none) op.stamp
          forward noBuckets (by simp) (fun _ => .whole) sorted after]
  · intro s current refused
    exact Store.allowed_after_refusal forward size (Store.after_keyed forward noRows ops) refused
      current alone
  · intro buckets refused
    exact local_allowed_after_refusal forward size (localAfter_keyed forward noBuckets ops) refused alone

/-- Two replicas, one of them behind the other. -/
theorem budget_kept_behind :
    (allowed "a" (Store.history 1 1 {} [.take "a" 10, .take "a" 9, .take "a" 11, .purge 20,
      .take "a" 19]) : Rat) ≤ 1 + 1 * (19 - 9) :=
  (budget_kept (by decide) (by decide) 10000 _).1 "a" 9 19 (by decide +kernel) (by decide)
    (by decide +kernel)

/-- A purged bucket is made again with an earlier stamp, and the same seconds are refilled again. -/
theorem purged_budget_exceeded :
    let ops : List Op := [.take "a" 0, .take "a" 1, .take "a" 2, .purge 3, .take "a" 0, .take "a" 1,
      .take "a" 2]
    (∀ op ∈ ops, 0 ≤ op.stamp ∧ op.stamp ≤ 3) ∧
      ¬ (allowed "a" (Store.history 1 1 {} ops) : Rat) ≤ 1 + 1 * (3 - 0) := by
  decide +kernel

end Smo.RateLimit
