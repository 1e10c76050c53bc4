import Mathlib.Data.List.Basic

/-!
# Runs of a step function

A system is a partial step function on states, the actions being what the
environment and the scheduler choose. A run is a list of actions taken until one
of them is not enabled.

The rules here are for properties that not every run has. When a step from a good
state leads to a good state if a condition on the state before it holds, a run
stays good if all its steps meet the condition; and when it does so exactly then,
the run does so exactly then.
-/

namespace Kyber.Lib

variable {σ α : Type}

/-- The states a run goes through, the first one included. -/
def visits (step : σ → α → Option σ) (s : σ) : List α → List σ
  | [] => [s]
  | a :: as =>
      match step s a with
      | none => [s]
      | some s' => s :: visits step s' as

/-- The steps of a run: each action with the state it is taken in. -/
def moves (step : σ → α → Option σ) (s : σ) : List α → List (σ × α)
  | [] => []
  | a :: as =>
      match step s a with
      | none => []
      | some s' => (s, a) :: moves step s' as

/-- The state that the actions lead to, if all of them are enabled. -/
def exec (step : σ → α → Option σ) (s : σ) : List α → Option σ
  | [] => some s
  | a :: as => (step s a).bind fun s' => exec step s' as

section

variable {step : σ → α → Option σ}

theorem mem_visits_self (s : σ) (as : List α) : s ∈ visits step s as := by
  cases as with
  | nil => simp [visits]
  | cons a as =>
      rw [visits]
      split <;> simp

theorem mem_visits_of_exec {s s' : σ} {as : List α} (h : exec step s as = some s') :
    s' ∈ visits step s as := by
  induction as generalizing s with
  | nil =>
      cases h
      exact mem_visits_self _ []
  | cons a as ih =>
      obtain ⟨t, ht, h⟩ := Option.bind_eq_some_iff.mp h
      rw [visits, ht]
      exact List.mem_cons_of_mem _ (ih h)

theorem mem_visits_of_mem_moves {s : σ} {as : List α} {m : σ × α} (h : m ∈ moves step s as) :
    m.1 ∈ visits step s as := by
  induction as generalizing s with
  | nil => cases h
  | cons a as ih =>
      rw [moves] at h
      rw [visits]
      cases hs : step s a with
      | none => simp [hs] at h
      | some s' =>
          simp only [hs, List.mem_cons] at h ⊢
          exact h.imp (fun heq => by rw [heq]) ih

theorem mem_of_mem_moves {s : σ} {as : List α} {m : σ × α} (h : m ∈ moves step s as) :
    m.2 ∈ as := by
  induction as generalizing s with
  | nil => cases h
  | cons a as ih =>
      rw [moves] at h
      cases hs : step s a with
      | none => simp [hs] at h
      | some s' =>
          simp only [hs, List.mem_cons] at h ⊢
          exact h.imp (fun heq => by rw [heq]) ih

/-- What holds at the start, and is kept by every step that meets a condition,
holds all along a run whose steps meet it. -/
theorem forall_visits_of_forall_moves (Inv : σ → Prop) (Cond : σ → α → Prop)
    (hstep : ∀ {s a s'}, Inv s → Cond s a → step s a = some s' → Inv s') {s : σ} (hs : Inv s)
    (as : List α) (hcond : ∀ m ∈ moves step s as, Cond m.1 m.2) :
    ∀ x ∈ visits step s as, Inv x := by
  induction as generalizing s with
  | nil => simpa [visits] using hs
  | cons a as ih =>
      rw [visits]
      rw [moves] at hcond
      cases h : step s a with
      | none => simpa using hs
      | some s' =>
          simp only [h, List.forall_mem_cons] at hcond ⊢
          exact ⟨hs, ih (hstep hs hcond.1 h) hcond.2⟩

/-- When every step leads to a related state, and the relation is transitive, a
run's states are related in their order. -/
theorem pairwise_visits_of_forall_moves {R : σ → σ → Prop} (Inv : σ → Prop) (Cond : σ → α → Prop)
    (htrans : ∀ {x y z}, R x y → R y z → R x z)
    (hstep : ∀ {s a s'}, Inv s → Cond s a → step s a = some s' → Inv s' ∧ R s s') {s : σ}
    (hs : Inv s) (as : List α) (hcond : ∀ m ∈ moves step s as, Cond m.1 m.2) :
    (visits step s as).Pairwise R := by
  induction as generalizing s with
  | nil => simp [visits]
  | cons a as ih =>
      rw [visits]
      rw [moves] at hcond
      cases h : step s a with
      | none => simp
      | some s' =>
          simp only [h, List.forall_mem_cons] at hcond
          obtain ⟨hs', hR⟩ := hstep hs hcond.1 h
          refine List.pairwise_cons.mpr ⟨fun x hx => ?_, ih hs' hcond.2⟩
          refine (forall_visits_of_forall_moves (fun x => Inv x ∧ R s x) Cond ?_ ⟨hs', hR⟩ as
            hcond.2 x hx).2
          intro y b y' hy hb hyb
          obtain ⟨hy', hRy⟩ := hstep hy.1 hb hyb
          exact ⟨hy', htrans hy.2 hRy⟩

theorem rel_of_pairwise_visits {R : σ → σ → Prop} {s : σ} {as : List α}
    (h : (visits step s as).Pairwise R) {m : σ × α} (hm : m ∈ moves step s as) {s' : σ}
    (hstep : step m.1 m.2 = some s') : R m.1 s' := by
  induction as generalizing s with
  | nil => cases hm
  | cons a as ih =>
      rw [visits] at h
      rw [moves] at hm
      cases hs : step s a with
      | none => simp [hs] at hm
      | some t =>
          simp only [hs, List.pairwise_cons, List.mem_cons] at h hm
          rcases hm with rfl | hm
          · cases hs.symm.trans hstep
            exact h.1 _ (mem_visits_self _ as)
          · exact ih h.2 hm

/-- A run is good throughout exactly if each of its steps meets the condition,
given that, from a good state, a step leads to a good one exactly then. `Base`
is what every step keeps. -/
theorem forall_visits_iff_forall_moves (step : σ → α → Option σ) (Base : σ → Prop)
    (Cond : σ → α → Prop) {Inv : σ → Prop}
    (hbase : ∀ {s a s'}, Base s → step s a = some s' → Base s')
    (hstep : ∀ {s a s'}, Base s → Inv s → step s a = some s' → (Inv s' ↔ Cond s a))
    {s : σ} (hb : Base s) (hs : Inv s) (as : List α) :
    (∀ x ∈ visits step s as, Inv x) ↔ ∀ m ∈ moves step s as, Cond m.1 m.2 := by
  induction as generalizing s with
  | nil => simpa [visits, moves] using hs
  | cons a as ih =>
      rw [visits, moves]
      cases h : step s a with
      | none => simpa using hs
      | some s' =>
          simp only [List.forall_mem_cons]
          rw [← hstep hb hs h]
          constructor
          · rintro ⟨-, hall⟩
            have hs' := hall s' (mem_visits_self s' as)
            exact ⟨hs', (ih (hbase hb h) hs').mp hall⟩
          · rintro ⟨hs', hall⟩
            exact ⟨hs, (ih (hbase hb h) hs').mpr hall⟩

/-- The rule for invariants. -/
theorem exec_rule (Inv : σ → Prop) (hstep : ∀ {s a s'}, Inv s → step s a = some s' → Inv s')
    {s s' : σ} (hs : Inv s) {as : List α} (h : exec step s as = some s') : Inv s' := by
  induction as generalizing s with
  | nil =>
      cases h
      exact hs
  | cons a as ih =>
      obtain ⟨t, ht, hrest⟩ := Option.bind_eq_some_iff.mp h
      exact ih (hstep hs ht) hrest

/-- The rule for properties of a state and of the steps that led to it, in runs all of
whose actions meet a condition. -/
theorem exec_moves_of_forall (Inv : List (σ × α) → σ → Prop) (Cond : α → Prop)
    (hstep : ∀ {hist s a s'}, Inv hist s → Cond a → step s a = some s' →
      Inv (hist ++ [(s, a)]) s')
    {s s' : σ} (hs : Inv [] s) {as : List α} (hcond : ∀ a ∈ as, Cond a)
    (h : exec step s as = some s') : Inv (moves step s as) s' := by
  suffices ∀ hist : List (σ × α), Inv hist s → Inv (hist ++ moves step s as) s' from this [] hs
  clear hs
  induction as generalizing s with
  | nil =>
      cases h
      simp [moves]
  | cons a as ih =>
      intro hist hs
      obtain ⟨t, ht, hrest⟩ := Option.bind_eq_some_iff.mp h
      obtain ⟨ha, hcond⟩ := List.forall_mem_cons.mp hcond
      rw [moves, ht]
      simpa using ih hcond hrest (hist ++ [(s, a)]) (hstep hs ha ht)

/-- The same without a condition. -/
theorem exec_moves_rule (Inv : List (σ × α) → σ → Prop)
    (hstep : ∀ {hist s a s'}, Inv hist s → step s a = some s' → Inv (hist ++ [(s, a)]) s')
    {s s' : σ} (hs : Inv [] s) {as : List α} (h : exec step s as = some s') :
    Inv (moves step s as) s' :=
  exec_moves_of_forall Inv (fun _ => True) (fun hs _ h => hstep hs h) hs (fun _ _ => trivial) h

/-- And with a condition on the steps, of which the states are a part. -/
theorem exec_moves_of_forall_moves (Inv : List (σ × α) → σ → Prop) (Cond : σ → α → Prop)
    (hstep : ∀ {hist s a s'}, Inv hist s → Cond s a → step s a = some s' →
      Inv (hist ++ [(s, a)]) s')
    {s s' : σ} (hs : Inv [] s) {as : List α} (hcond : ∀ m ∈ moves step s as, Cond m.1 m.2)
    (h : exec step s as = some s') : Inv (moves step s as) s' := by
  suffices ∀ hist : List (σ × α), Inv hist s → Inv (hist ++ moves step s as) s' from this [] hs
  clear hs
  induction as generalizing s with
  | nil =>
      cases h
      simp [moves]
  | cons a as ih =>
      intro hist hs
      obtain ⟨t, ht, hrest⟩ := Option.bind_eq_some_iff.mp h
      simp only [moves, ht, List.forall_mem_cons] at hcond ⊢
      simpa using ih hcond.2 hrest (hist ++ [(s, a)]) (hstep hs hcond.1 ht)

/-- What a run takes from a queue and what is left there is what was there and what the
run has put there, in this order. -/
theorem exec_queue {β : Type} (Base : σ → Prop) (Cond : α → Prop) (content : σ → List β)
    (taken put : σ × α → List β)
    (hstep : ∀ {s a s'}, Base s → Cond a → step s a = some s' →
      Base s' ∧ taken (s, a) ++ content s' = content s ++ put (s, a))
    {s s' : σ} (hs : Base s) {as : List α} (hcond : ∀ a ∈ as, Cond a)
    (h : exec step s as = some s') :
    (moves step s as).flatMap taken ++ content s' = content s ++ (moves step s as).flatMap put := by
  refine (exec_moves_of_forall (fun hist x => Base x ∧
    hist.flatMap taken ++ content x = content s ++ hist.flatMap put) Cond ?_ ⟨hs, by simp⟩
    hcond h).2
  intro hist x a y hx ha hxy
  obtain ⟨hy, hqueue⟩ := hstep hx.1 ha hxy
  refine ⟨hy, ?_⟩
  simp only [List.flatMap_append, List.flatMap_cons, List.flatMap_nil, List.append_nil,
    List.append_assoc]
  rw [hqueue, ← List.append_assoc, hx.2, List.append_assoc]

/-- The moves of two runs in a row. -/
theorem moves_append {s t : σ} {as : List α} (h : exec step s as = some t) (bs : List α) :
    moves step s (as ++ bs) = moves step s as ++ moves step t bs := by
  induction as generalizing s with
  | nil =>
      cases h
      rfl
  | cons a as ih =>
      obtain ⟨x, hx, hrest⟩ := Option.bind_eq_some_iff.mp h
      rw [List.cons_append, moves, moves, hx]
      exact congrArg ((s, a) :: ·) (ih hrest)

theorem exec_append {s t : σ} {as : List α} (h : exec step s as = some t) (bs : List α) :
    exec step s (as ++ bs) = exec step t bs := by
  induction as generalizing s with
  | nil =>
      cases h
      rfl
  | cons a as ih =>
      obtain ⟨x, hx, hrest⟩ := Option.bind_eq_some_iff.mp h
      rw [List.cons_append, exec, hx]
      exact ih hrest

/-- A run comes to its end exactly if each of its actions meets what enables it, in the state
that those before it lead to. -/
theorem exec_isSome_iff (Inv : σ → Prop) (Cond : σ → α → Prop)
    (hstep : ∀ {s a s'}, Inv s → step s a = some s' → Inv s')
    (hsome : ∀ {s a}, Inv s → ((step s a).isSome ↔ Cond s a)) {s : σ} (hs : Inv s)
    (as : List α) :
    (exec step s as).isSome ↔ ∀ before a after t, as = before ++ a :: after →
      exec step s before = some t → Cond t a := by
  induction as generalizing s with
  | nil =>
      refine iff_of_true rfl ?_
      intro before a after t h
      exact absurd h.symm (List.append_ne_nil_of_right_ne_nil before (List.cons_ne_nil a after))
  | cons a as ih =>
      cases hnext : step s a with
      | none =>
          rw [exec, hnext]
          refine iff_of_false Bool.false_ne_true fun h => ?_
          have henabled := (hsome hs).mpr (h [] a as s rfl rfl)
          rw [hnext] at henabled
          exact Bool.false_ne_true henabled
      | some s' =>
          rw [exec, hnext, Option.bind_some, ih (hstep hs hnext)]
          constructor
          · intro h before b after t heq hrun
            cases before with
            | nil =>
                cases heq
                cases hrun
                exact (hsome hs).mp (by rw [hnext]; rfl)
            | cons b' before =>
                cases heq
                rw [exec, hnext] at hrun
                exact h before b after t rfl hrun
          · intro h before b after t heq hrun
            refine h (a :: before) b after t (by rw [heq]; rfl) ?_
            rw [exec, hnext]
            exact hrun

/-- The same, where it does not depend on the state whether an action is enabled. -/
theorem exec_isSome_iff_forall_mem (Inv : σ → Prop) (Cond : α → Prop)
    (hstep : ∀ {s a s'}, Inv s → step s a = some s' → Inv s')
    (hsome : ∀ {s a}, Inv s → ((step s a).isSome ↔ Cond a)) {s : σ} (hs : Inv s)
    (as : List α) : (exec step s as).isSome ↔ ∀ a ∈ as, Cond a := by
  induction as generalizing s with
  | nil => exact iff_of_true rfl fun a ha => absurd ha List.not_mem_nil
  | cons a as ih =>
      rw [List.forall_mem_cons, ← hsome hs, exec]
      cases hnext : step s a with
      | none => exact iff_of_false Bool.false_ne_true fun h => Bool.false_ne_true h.1
      | some s' =>
          rw [Option.bind_some, ih (hstep hs hnext)]
          exact (and_iff_right rfl).symm

theorem exec_eq_foldlM (s : σ) (as : List α) : exec step s as = as.foldlM step s := by
  induction as generalizing s with
  | nil => rfl
  | cons a as ih =>
      rw [exec, List.foldlM_cons]
      exact congrArg (step s a).bind (funext ih)

end

/-! ## Machines that answer -/

variable {τ β : Type}

/-- The state that the actions lead to, and what each of them is answered with. -/
def respond (step : σ → α → Option (σ × β)) (s : σ) : List α → Option (σ × List β)
  | [] => some (s, [])
  | a :: as =>
      (step s a).bind fun r => (respond step r.1 as).map fun rest => (rest.1, r.2 :: rest.2)

/-- A machine answers as another does, which has an answer always, in the runs whose steps
there all meet a condition under which the two answer the same and remain related. -/
theorem respond_of_simulation {step : σ → α → Option (σ × β)} {spec : τ → α → τ × β}
    (R : σ → τ → Prop) (Cond : τ → α → Prop)
    (hstep : ∀ {s t a}, R s t → Cond t a →
      ∃ s', step s a = some (s', (spec t a).2) ∧ R s' (spec t a).1)
    {s : σ} {t : τ} (h : R s t) (as : List α)
    (hcond : ∀ m ∈ moves (fun t a => some (spec t a).1) t as, Cond m.1 m.2) :
    ∃ s' t' bs, respond step s as = some (s', bs) ∧
      respond (fun t a => some (spec t a)) t as = some (t', bs) ∧ R s' t' := by
  induction as generalizing s t with
  | nil => exact ⟨s, t, [], rfl, rfl, h⟩
  | cons a as ih =>
      rw [moves, List.forall_mem_cons] at hcond
      obtain ⟨s', hs, hR⟩ := hstep h hcond.1
      obtain ⟨s'', t'', bs, hss, htt, hR'⟩ := ih hR hcond.2
      refine ⟨s'', t'', (spec t a).2 :: bs, ?_, ?_, hR'⟩
      · rw [respond, hs, Option.bind_some, hss, Option.map_some]
      · rw [respond, Option.bind_some, htt, Option.map_some]

/-- Each action with the state in which it is tried, up to the first that has no answer. -/
def tries (step : σ → α → Option (σ × β)) (s : σ) : List α → List (σ × α)
  | [] => []
  | a :: as =>
      (s, a) ::
        match step s a with
        | none => []
        | some r => tries step r.1 as

theorem forall_tries_cons {step : σ → α → Option (σ × β)} {P : σ × α → Prop} {s : σ} {a : α}
    {r : σ × β} {as : List α} (ha : P (s, a)) (hstep : step s a = some r)
    (has : ∀ m ∈ tries step r.1 as, P m) : ∀ m ∈ tries step s (a :: as), P m := by
  rw [tries, hstep]
  exact List.forall_mem_cons.mpr ⟨ha, has⟩

/-- The same as `respond_of_simulation`, with a condition on what the machine itself tries. -/
theorem respond_of_simulation_of_tries {step : σ → α → Option (σ × β)} {spec : τ → α → τ × β}
    (R : σ → τ → Prop) (Cond : σ → α → Prop)
    (hstep : ∀ {s t a}, R s t → Cond s a →
      ∃ s', step s a = some (s', (spec t a).2) ∧ R s' (spec t a).1)
    {s : σ} {t : τ} (h : R s t) (as : List α) (hcond : ∀ m ∈ tries step s as, Cond m.1 m.2) :
    ∃ s' t' bs, respond step s as = some (s', bs) ∧
      respond (fun t a => some (spec t a)) t as = some (t', bs) ∧ R s' t' := by
  induction as generalizing s t with
  | nil => exact ⟨s, t, [], rfl, rfl, h⟩
  | cons a as ih =>
      rw [tries, List.forall_mem_cons] at hcond
      obtain ⟨s', hs, hR⟩ := hstep h hcond.1
      rw [hs] at hcond
      obtain ⟨s'', t'', bs, hss, htt, hR'⟩ := ih hR hcond.2
      refine ⟨s'', t'', (spec t a).2 :: bs, ?_, ?_, hR'⟩
      · rw [respond, hs, Option.bind_some, hss, Option.map_some]
      · rw [respond, Option.bind_some, htt, Option.map_some]

end Kyber.Lib
