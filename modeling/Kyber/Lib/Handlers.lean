import Mathlib.Data.List.Pairwise
import Kyber.Lib.Runs

/-!
# Request handlers over a shared store

A handler is a program that makes calls to a store, one at a time, and goes on
with the answer. Run alone it is a function of the store; several of them run
interleaved, in any order and at any time, and the store may change in between
for reasons of its own.

What an interleaving does to the store is read off the trace of the calls. Two
rules carry most arguments. The calls of one handler are a path through its
program, so what the program says about its calls holds of the trace
(`System.path`). And if every call puts in at least what it adds to a count and
takes out at most what it subtracts, the trace has taken out no more than has been
put in (`System.conserved`).
-/

namespace Kyber.Lib

/-- A program that makes calls `op`, answered by an `Ans op`. -/
inductive Prog (Op : Type) (Ans : Op → Type) (α : Type)
  | ret (a : α)
  | call (op : Op) (k : Ans op → Prog Op Ans α)

section

variable {Op : Type} {Ans : Op → Type} {α : Type} {σ : Type}

namespace Prog

/-- The program run alone. -/
def eval (perform : σ → (op : Op) → σ × Ans op) : σ → Prog Op Ans α → σ × α
  | s, .ret a => (s, a)
  | s, .call op k => eval perform (perform s op).1 (k (perform s op).2)

variable {perform : σ → (op : Op) → σ × Ans op}

@[simp] theorem eval_ret (s : σ) (a : α) : eval perform s (.ret a : Prog Op Ans α) = (s, a) := rfl

@[simp] theorem eval_call (s : σ) (op : Op) (k : Ans op → Prog Op Ans α) :
    eval perform s (.call op k) = eval perform (perform s op).1 (k (perform s op).2) := rfl

/-- The result of a program that has returned. -/
def result? : Prog Op Ans α → Option α
  | .ret a => some a
  | .call _ _ => none

theorem eq_ret_of_result? {p : Prog Op Ans α} {a : α} (h : p.result? = some a) : p = .ret a := by
  cases p with
  | ret b =>
      cases h
      rfl
  | call op k => cases h

/-- The program makes the calls, with these answers, and `q` is left of it. -/
inductive Path : Prog Op Ans α → List ((op : Op) × Ans op) → Prog Op Ans α → Prop
  | nil (p : Prog Op Ans α) : Path p [] p
  | cons {op : Op} {k : Ans op → Prog Op Ans α} {a : Ans op} {cs : List ((op : Op) × Ans op)}
      {q : Prog Op Ans α} : Path (k a) cs q → Path (.call op k) (⟨op, a⟩ :: cs) q

theorem Path.snoc {p : Prog Op Ans α} {cs : List ((op : Op) × Ans op)} {op : Op}
    {k : Ans op → Prog Op Ans α} (h : Path p cs (.call op k)) (a : Ans op) :
    Path p (cs ++ [⟨op, a⟩]) (k a) := by
  generalize hq : Prog.call op k = q at h
  induction h with
  | nil p =>
      subst hq
      exact .cons (.nil _)
  | cons _ ih => exact .cons (ih hq)

theorem path_ret {a : α} {cs : List ((op : Op) × Ans op)} {q : Prog Op Ans α}
    (h : Path (.ret a) cs q) : cs = [] ∧ q = .ret a := by
  cases h
  exact ⟨rfl, rfl⟩

theorem path_call {op : Op} {k : Ans op → Prog Op Ans α} {cs : List ((op : Op) × Ans op)}
    {q : Prog Op Ans α} (h : Path (.call op k) cs q) :
    cs = [] ∧ q = .call op k ∨ ∃ a cs', cs = ⟨op, a⟩ :: cs' ∧ Path (k a) cs' q := by
  cases h with
  | nil => exact .inl ⟨rfl, rfl⟩
  | cons h => exact .inr ⟨_, _, rfl, h⟩

/-- The program makes only calls that have the property. -/
def Makes (P : Op → Prop) (p : Prog Op Ans α) : Prop :=
  ∀ (cs : List ((op : Op) × Ans op)) (op : Op) (k : Ans op → Prog Op Ans α),
    Path p cs (.call op k) → P op

theorem Makes.ret {P : Op → Prop} (a : α) : Makes P (.ret a : Prog Op Ans α) := by
  intro cs op k h
  cases (path_ret h).2

theorem Makes.call {P : Op → Prop} {op : Op} {k : Ans op → Prog Op Ans α} (hop : P op)
    (hk : ∀ a, Makes P (k a)) : Makes P (.call op k) := by
  intro cs op' k' h
  rcases path_call h with ⟨-, hq⟩ | ⟨a, cs', -, hpath⟩
  · cases hq
    exact hop
  · exact hk a cs' op' k' hpath

theorem Makes.path {P : Op → Prop} {p q : Prog Op Ans α} (h : Makes P p)
    {cs : List ((op : Op) × Ans op)} (hpath : Path p cs q) : ∀ c ∈ cs, P c.1 := by
  induction hpath with
  | nil p => simp
  | cons hpath ih =>
      rw [List.forall_mem_cons]
      exact ⟨h [] _ _ (.nil _), ih fun cs op k hrest => h _ op k (.cons hrest)⟩

/-- What each call keeps of the calls made and the store, the run of a program
keeps. -/
theorem eval_rule (Inv : List ((op : Op) × Ans op) → σ → Prop)
    (hcall : ∀ {cs s}, Inv cs s → ∀ op, Inv (cs ++ [⟨op, (perform s op).2⟩]) (perform s op).1)
    {s : σ} (hs : Inv [] s) (p : Prog Op Ans α) :
    ∃ cs, Path p cs (.ret (eval perform s p).2) ∧ Inv cs (eval perform s p).1 := by
  suffices ∀ cs, Inv cs s →
      ∃ cs', Path p cs' (.ret (eval perform s p).2) ∧ Inv (cs ++ cs') (eval perform s p).1 from
    this [] hs
  clear hs
  induction p generalizing s with
  | ret a =>
      intro cs hs
      exact ⟨[], .nil _, by simpa using hs⟩
  | call op k ih =>
      intro cs hs
      obtain ⟨cs', hpath, hinv⟩ := ih (perform s op).2 (cs ++ [⟨op, (perform s op).2⟩]) (hcall hs op)
      exact ⟨_, .cons hpath, by simpa using hinv⟩

/-- What the calls of a program keep of the store, its run keeps. -/
theorem Makes.eval_view {β : Type} {P : Op → Prop} {p : Prog Op Ans α} (h : Makes P p)
    (view : σ → β) (hview : ∀ s op, P op → view (perform s op).1 = view s) (s : σ) :
    view (eval perform s p).1 = view s := by
  induction p generalizing s with
  | ret a => rfl
  | call op k ih =>
      rw [eval_call, ih _ fun cs op' k' hpath => h _ op' k' (.cons hpath)]
      exact hview s op (h [] op k (.nil _))

/-- The program makes at most one call that has the property. -/
def MakesOnce (W : Op → Bool) (p : Prog Op Ans α) : Prop :=
  ∀ (cs : List ((op : Op) × Ans op)) (q : Prog Op Ans α), Path p cs q →
    cs.countP (fun c => W c.1) ≤ 1

section Once

variable {W : Op → Bool} {op : Op} {k : Ans op → Prog Op Ans α}

theorem countP_of_makes {p q : Prog Op Ans α} (h : Makes (fun op => W op = false) p)
    {cs : List ((op : Op) × Ans op)} (hpath : Path p cs q) : cs.countP (fun c => W c.1) = 0 := by
  rw [List.countP_eq_zero]
  intro c hc
  rw [h.path hpath c hc]
  exact Bool.false_ne_true

theorem Makes.once {p : Prog Op Ans α} (h : Makes (fun op => W op = false) p) :
    MakesOnce W p := by
  intro cs q hpath
  rw [countP_of_makes h hpath]
  exact Nat.zero_le 1

/-- The call is not of the kind. -/
theorem MakesOnce.later (hop : W op = false) (hk : ∀ a, MakesOnce W (k a)) :
    MakesOnce W (.call op k) := by
  intro cs q h
  rcases path_call h with ⟨rfl, -⟩ | ⟨a, cs', rfl, hpath⟩
  · exact Nat.zero_le 1
  · rw [List.countP_cons_of_neg (by rw [hop]; exact Bool.false_ne_true)]
    exact hk a cs' q hpath

/-- No call of the kind comes after this one. -/
theorem MakesOnce.last (hk : ∀ a, Makes (fun op => W op = false) (k a)) :
    MakesOnce W (.call op k) := by
  intro cs q h
  rcases path_call h with ⟨rfl, -⟩ | ⟨a, cs', rfl, hpath⟩
  · exact Nat.zero_le 1
  · rw [List.countP_cons, countP_of_makes (hk a) hpath]
    split <;> decide

/-- A program that is at a call of the kind has not made one before. -/
theorem MakesOnce.first {p : Prog Op Ans α} (h : MakesOnce W p) (hop : W op = true)
    {cs : List ((op : Op) × Ans op)} (hpath : Path p cs (.call op k)) (a : Ans op) :
    ∀ c ∈ cs, W c.1 = false := by
  have hcount := h _ _ (hpath.snoc a)
  rw [List.countP_append, List.countP_singleton, if_pos hop] at hcount
  have hzero : cs.countP (fun c => W c.1) = 0 := by omega
  intro c hc
  exact Bool.eq_false_iff.mpr (List.countP_eq_zero.mp hzero c hc)

end Once

/-! ### Calls that may fail -/

section Fallible

variable {ξ : Type} {R : Op → Type} {op : Op} {failed : α}
  {k : R op → Prog Op (fun op => Except ξ (R op)) α}

/-- A call that may fail, and what is returned then. -/
def attempt (op : Op) (failed : α) (k : R op → Prog Op (fun op => Except ξ (R op)) α) :
    Prog Op (fun op => Except ξ (R op)) α :=
  .call op fun
    | .error _ => .ret failed
    | .ok a => k a

/-- The call is answered, or fails and ends the program. -/
theorem path_attempt {cs : List ((op : Op) × Except ξ (R op))}
    {q : Prog Op (fun op => Except ξ (R op)) α} (h : Path (attempt op failed k) cs q) :
    (cs = [] ∧ q = attempt op failed k) ∨ (∃ e, cs = [⟨op, .error e⟩] ∧ q = .ret failed) ∨
      ∃ a cs', cs = ⟨op, .ok a⟩ :: cs' ∧ Path (k a) cs' q := by
  rcases path_call h with hnone | ⟨a, cs', hcs, hpath⟩
  · exact .inl hnone
  · cases a with
    | error e =>
        obtain ⟨rfl, hq⟩ := path_ret hpath
        exact .inr (.inl ⟨e, hcs, hq⟩)
    | ok a => exact .inr (.inr ⟨a, cs', hcs, hpath⟩)

/-- A program that has returned something else had its call answered. -/
theorem path_attempt_ret {cs : List ((op : Op) × Except ξ (R op))} {r : α} (hne : r ≠ failed)
    (h : Path (attempt op failed k) cs (.ret r)) :
    ∃ a cs', cs = ⟨op, .ok a⟩ :: cs' ∧ Path (k a) cs' (.ret r) := by
  rcases path_attempt h with ⟨-, hq⟩ | ⟨e, -, hq⟩ | h
  · cases hq
  · cases hq
    exact absurd rfl hne
  · exact h

/-- A program that is at another call had this one answered. -/
theorem path_attempt_call {op' : Op} (hne : op ≠ op')
    {k' : Except ξ (R op') → Prog Op (fun op => Except ξ (R op)) α}
    {cs : List ((op : Op) × Except ξ (R op))}
    (h : Path (attempt op failed k) cs (.call op' k')) :
    ∃ a cs', cs = ⟨op, .ok a⟩ :: cs' ∧ Path (k a) cs' (.call op' k') := by
  rcases path_attempt h with ⟨-, hq⟩ | ⟨e, -, hq⟩ | h
  · cases hq
    exact absurd rfl hne
  · cases hq
  · exact h

theorem makes_attempt {P : Op → Prop} (hop : P op) (hk : ∀ a, Makes P (k a)) :
    Makes P (attempt op failed k) := by
  refine .call hop fun a => ?_
  cases a with
  | error e => exact .ret _
  | ok a => exact hk a

theorem makesOnce_attempt_later {W : Op → Bool} (hop : W op = false)
    (hk : ∀ a, MakesOnce W (k a)) : MakesOnce W (attempt op failed k) := by
  refine .later hop fun a => ?_
  cases a with
  | error e => exact (Makes.ret failed).once
  | ok a => exact hk a

theorem makesOnce_attempt_last {W : Op → Bool}
    (hk : ∀ a, Makes (fun op => W op = false) (k a)) : MakesOnce W (attempt op failed k) := by
  refine .last fun a => ?_
  cases a with
  | error e => exact .ret _
  | ok a => exact hk a

theorem eval_attempt {perform : σ → (op : Op) → σ × Except ξ (R op)} (s : σ) :
    (attempt op failed k).eval perform s =
      match (perform s op).2 with
      | .error _ => ((perform s op).1, failed)
      | .ok a => (k a).eval perform (perform s op).1 := by
  rw [attempt, eval_call]
  cases (perform s op).2 <;> rfl

end Fallible

end Prog

/-- A call in a trace: who made it, on which store, and the answer. -/
structure Event (σ : Type) {Op : Type} (Ans : Op → Type) where
  task : Nat
  store : σ
  call : (op : Op) × Ans op

/-- A service: what its requests run, how calls are served, and what else happens
to the store. `φ` is how the environment lets a call end. -/
structure Service (σ Op : Type) (Ans : Op → Type) (α ρ φ ε : Type) where
  handler : ρ → Prog Op Ans α
  serve : σ → φ → (op : Op) → σ × Ans op
  change : σ → ε → σ

structure System (σ : Type) {Op : Type} (Ans : Op → Type) (α ρ : Type) where
  store : σ
  requests : List ρ := []
  tasks : List (Prog Op Ans α) := []
  trace : List (Event σ Ans) := []

inductive System.Action (ρ φ ε : Type)
  | request (r : ρ)
  | run (task : Nat) (outcome : φ)
  | change (e : ε)

variable {ρ φ ε : Type}

/-- One step: a request arrives, a handler makes its next call, or the store
changes. -/
def Service.step (S : Service σ Op Ans α ρ φ ε) (sys : System σ Ans α ρ) :
    System.Action ρ φ ε → Option (System σ Ans α ρ)
  | .request r =>
      some { sys with requests := sys.requests ++ [r], tasks := sys.tasks ++ [S.handler r] }
  | .run i outcome =>
      match sys.tasks[i]? with
      | some (.call op k) =>
          let served := S.serve sys.store outcome op
          some { sys with
            store := served.1
            tasks := sys.tasks.set i (k served.2)
            trace := sys.trace ++ [{ task := i, store := sys.store, call := ⟨op, served.2⟩ }] }
      | _ => none
  | .change e => some { sys with store := S.change sys.store e }

/-- A handler has made its next call. -/
def Service.ran (S : Service σ Op Ans α ρ φ ε) (sys : System σ Ans α ρ) (i : Nat) (outcome : φ)
    (op : Op) (k : Ans op → Prog Op Ans α) : System σ Ans α ρ :=
  { sys with
    store := (S.serve sys.store outcome op).1
    tasks := sys.tasks.set i (k (S.serve sys.store outcome op).2)
    trace := sys.trace ++ [{ task := i, store := sys.store,
                             call := ⟨op, (S.serve sys.store outcome op).2⟩ }] }

/-- What a step can do. -/
theorem Service.step_cases {S : Service σ Op Ans α ρ φ ε} {sys sys' : System σ Ans α ρ}
    {a : System.Action ρ φ ε} (h : S.step sys a = some sys') :
    (∃ r, a = .request r ∧ sys' =
      { sys with requests := sys.requests ++ [r], tasks := sys.tasks ++ [S.handler r] }) ∨
    (∃ i outcome op k, a = .run i outcome ∧ sys.tasks[i]? = some (.call op k) ∧
      sys' = S.ran sys i outcome op k) ∨
    ∃ e, a = .change e ∧ sys' = { sys with store := S.change sys.store e } := by
  cases a with
  | request r =>
      cases h
      exact .inl ⟨r, rfl, rfl⟩
  | run i outcome =>
      simp only [Service.step] at h
      split at h
      · next op k hi =>
          cases h
          exact .inr (.inl ⟨i, outcome, op, k, rfl, hi, rfl⟩)
      · cases h
  | change e =>
      cases h
      exact .inr (.inr ⟨e, rfl, rfl⟩)

namespace System

variable {S : Service σ Op Ans α ρ φ ε} {sys sys' : System σ Ans α ρ}

/-- The calls of one task. -/
def calls (sys : System σ Ans α ρ) (i : Nat) : List ((op : Op) × Ans op) :=
  (sys.trace.filter fun e => e.task = i).map Event.call

/-- What every run keeps: a task stands where its calls have brought it, and the
trace is what the store answered. -/
structure Traced (S : Service σ Op Ans α ρ φ ε) (sys : System σ Ans α ρ) : Prop where
  length_eq : sys.tasks.length = sys.requests.length
  path : ∀ (i : Nat) (r : ρ) (q : Prog Op Ans α), sys.requests[i]? = some r →
    sys.tasks[i]? = some q → Prog.Path (S.handler r) (sys.calls i) q
  task_lt : ∀ e ∈ sys.trace, e.task < sys.requests.length
  served : ∀ e ∈ sys.trace, ∃ outcome, e.call.2 = (S.serve e.store outcome e.call.1).2

theorem calls_append (sys : System σ Ans α ρ) (e : Event σ Ans) (i : Nat) :
    ({ sys with trace := sys.trace ++ [e] } : System σ Ans α ρ).calls i
      = sys.calls i ++ if e.task = i then [e.call] else [] := by
  simp only [calls, List.filter_append, List.map_append]
  by_cases h : e.task = i <;> simp [h]

theorem Traced.init (S : Service σ Op Ans α ρ φ ε) (store : σ) :
    Traced S { store := store } := by
  refine ⟨rfl, ?_, by simp, by simp⟩
  intro i r q hr
  simp at hr

theorem Traced.request (h : Traced S sys) (r : ρ) :
    Traced S { sys with requests := sys.requests ++ [r], tasks := sys.tasks ++ [S.handler r] } where
  length_eq := by simp [h.length_eq]
  task_lt e he := by
    have := h.task_lt e he
    simp only [List.length_append]
    omega
  served := h.served
  path := by
    intro i r' q hr hq
    show Prog.Path _ (sys.calls i) _
    simp only [List.getElem?_append, List.getElem?_singleton, h.length_eq] at hr hq
    split at hr
    · next hlt =>
        rw [if_pos hlt] at hq
        exact h.path i r' q hr hq
    · next hge =>
        rw [if_neg hge] at hq
        split at hr
        · next hi =>
            rw [if_pos hi] at hq
            cases hr
            cases hq
            -- The new task has made no call.
            have hnone : sys.calls i = [] := by
              rw [calls, List.map_eq_nil_iff, List.filter_eq_nil_iff]
              intro e he hei
              have := h.task_lt e he
              simp only [decide_eq_true_eq] at hei
              omega
            rw [hnone]
            exact .nil _
        · cases hr

theorem Traced.run (h : Traced S sys) {i : Nat} {op : Op} {k : Ans op → Prog Op Ans α}
    (hi : sys.tasks[i]? = some (.call op k)) (outcome : φ) (store : σ) :
    Traced S { sys with
      store := store
      tasks := sys.tasks.set i (k (S.serve sys.store outcome op).2)
      trace := sys.trace ++ [{ task := i, store := sys.store,
                               call := ⟨op, (S.serve sys.store outcome op).2⟩ }] } where
  length_eq := by simp [h.length_eq]
  task_lt := by
    intro e he
    rcases List.mem_append.mp he with he | he
    · exact h.task_lt e he
    · rw [List.mem_singleton] at he
      subst he
      obtain ⟨hlt, -⟩ := List.getElem?_eq_some_iff.mp hi
      rw [← h.length_eq]
      exact hlt
  served := by
    intro e he
    rcases List.mem_append.mp he with he | he
    · exact h.served e he
    · rw [List.mem_singleton] at he
      subst he
      exact ⟨outcome, rfl⟩
  path := by
    intro j r q hr hq
    show Prog.Path _ (({ sys with trace := _ } : System σ Ans α ρ).calls j) _
    rw [calls_append]
    by_cases hij : i = j
    · subst hij
      obtain ⟨hlt, -⟩ := List.getElem?_eq_some_iff.mp hi
      simp only [List.getElem?_set, hlt, if_true, Option.some.injEq] at hq
      subst hq
      rw [if_pos rfl]
      exact (h.path i r _ hr hi).snoc _
    · simp only [List.getElem?_set, if_neg hij] at hq
      rw [if_neg hij, List.append_nil]
      exact h.path j r q hr hq

theorem Traced.step (h : Traced S sys) {a : Action ρ φ ε} (hstep : S.step sys a = some sys') :
    Traced S sys' := by
  cases a with
  | request r =>
      cases hstep
      exact h.request r
  | run i outcome =>
      simp only [Service.step] at hstep
      split at hstep
      · next op k hi =>
          cases hstep
          exact h.run hi outcome _
      · cases hstep
  | change e =>
      cases hstep
      exact ⟨h.length_eq, h.path, h.task_lt, h.served⟩

theorem exec_traced {store : σ} {as : List (Action ρ φ ε)}
    (h : exec S.step { store := store } as = some sys) : Traced S sys :=
  exec_rule (Traced S) (fun h hstep => h.step hstep) (Traced.init S store) h

/-- A count of things in the store: what has been taken out was there at the start
or has been put in. -/
theorem conserved (count : σ → Nat) (taken put : (op : Op) × Ans op → Bool)
    (hserve : ∀ s outcome op, count (S.serve s outcome op).1 +
        (taken ⟨op, (S.serve s outcome op).2⟩).toNat
      ≤ count s + (put ⟨op, (S.serve s outcome op).2⟩).toNat)
    (hchange : ∀ s e, count (S.change s e) ≤ count s) {store : σ} {as : List (Action ρ φ ε)}
    (h : exec S.step { store := store } as = some sys) :
    count sys.store + sys.trace.countP (fun e => taken e.call)
      ≤ count store + sys.trace.countP fun e => put e.call := by
  refine exec_rule (fun sys => count sys.store + sys.trace.countP (fun e => taken e.call)
      ≤ count store + sys.trace.countP fun e => put e.call) ?_ ?_ h
  · intro sys a sys' hinv hstep
    cases a with
    | request r =>
        cases hstep
        exact hinv
    | change e =>
        cases hstep
        have := hchange sys.store e
        show count (S.change sys.store e) + sys.trace.countP (fun e => taken e.call)
          ≤ count store + sys.trace.countP fun e => put e.call
        omega
    | run i outcome =>
        simp only [Service.step] at hstep
        split at hstep
        · next op k hi =>
            cases hstep
            have := hserve sys.store outcome op
            simp only [List.countP_append, List.countP_singleton]
            cases ht : taken ⟨op, (S.serve sys.store outcome op).2⟩ <;>
              cases hp : put ⟨op, (S.serve sys.store outcome op).2⟩ <;>
              simp only [ht, hp, Bool.toNat_true, Bool.toNat_false] at this ⊢ <;>
              simp <;> omega
        · cases hstep
  · simp

theorem mem_calls {i : Nat} {c : (op : Op) × Ans op} :
    c ∈ sys.calls i ↔ ∃ e ∈ sys.trace, e.task = i ∧ e.call = c := by
  simp only [calls, List.mem_map, List.mem_filter, decide_eq_true_eq, and_assoc]

/-- A call has been answered from the store that it came to. -/
theorem Traced.served_call (h : Traced S sys) {i : Nat} {op : Op} {answer : Ans op}
    (hc : ⟨op, answer⟩ ∈ sys.calls i) :
    ∃ e ∈ sys.trace, e.task = i ∧ ∃ outcome, answer = (S.serve e.store outcome op).2 := by
  obtain ⟨e, he, htask, hcall⟩ := mem_calls.mp hc
  obtain ⟨outcome, hserved⟩ := h.served e he
  rw [hcall] at hserved
  exact ⟨e, he, htask, outcome, hserved⟩

theorem Traced.request_of_task (h : Traced S sys) {i : Nat} {q : Prog Op Ans α}
    (hi : sys.tasks[i]? = some q) : ∃ r, sys.requests[i]? = some r := by
  obtain ⟨hlt, -⟩ := List.getElem?_eq_some_iff.mp hi
  exact ⟨_, List.getElem?_eq_getElem (h.length_eq ▸ hlt)⟩

/-- The property holds of the store and every request with what is left of its program. -/
def ForallTasks (P : σ → ρ → Prog Op Ans α → Prop) (sys : System σ Ans α ρ) : Prop :=
  ∀ (i : Nat) (r : ρ) (q : Prog Op Ans α), sys.requests[i]? = some r →
    sys.tasks[i]? = some q → P sys.store r q

/-- The rule for properties of the store and of each task: they hold of a task that
starts or makes a call, and what the others do to the store keeps them. -/
theorem Traced.forallTasks_step {P : σ → ρ → Prog Op Ans α → Prop} (h : Traced S sys)
    {a : Action ρ φ ε} (hstep : S.step sys a = some sys') (hP : sys.ForallTasks P)
    (hrequest : ∀ r, P sys.store r (S.handler r))
    (hrun : ∀ (i : Nat) outcome op k r, a = .run i outcome → sys.requests[i]? = some r →
      sys.tasks[i]? = some (.call op k) →
      P (S.serve sys.store outcome op).1 r (k (S.serve sys.store outcome op).2))
    (hother : ∀ i outcome op k, a = .run i outcome → sys.tasks[i]? = some (.call op k) →
      ∀ (j : Nat) r q, sys.requests[j]? = some r → sys.tasks[j]? = some q → P sys.store r q →
        P (S.serve sys.store outcome op).1 r q)
    (hchange : ∀ e, a = .change e → ∀ r q, P sys.store r q → P (S.change sys.store e) r q) :
    sys'.ForallTasks P := by
  intro j r q hr hq
  rcases Service.step_cases hstep with ⟨r', rfl, rfl⟩ | ⟨i, outcome, op, k, rfl, hi, rfl⟩ |
    ⟨e, rfl, rfl⟩
  · simp only [List.getElem?_append, List.getElem?_singleton, h.length_eq] at hr hq
    split at hr
    · next hlt =>
        rw [if_pos hlt] at hq
        exact hP j r q hr hq
    · next hge =>
        rw [if_neg hge] at hq
        split at hr
        · next hj =>
            rw [if_pos hj] at hq
            cases hr
            cases hq
            exact hrequest _
        · cases hr
  · obtain ⟨hlt, -⟩ := List.getElem?_eq_some_iff.mp hi
    simp only [Service.ran] at hr hq ⊢
    by_cases hij : i = j
    · subst hij
      simp only [List.getElem?_set, hlt, if_true, Option.some.injEq] at hq
      subst hq
      exact hrun i outcome op k r rfl hr hi
    · simp only [List.getElem?_set, if_neg hij] at hq
      exact hother i outcome op k rfl hi j r q hr hq (hP j r q hr hq)
  · exact hchange e rfl r q (hP j r q hr hq)

/-- Every call of the trace is on the path of a request. -/
theorem Traced.owner (h : Traced S sys) {e : Event σ Ans} (he : e ∈ sys.trace) :
    ∃ r q, sys.requests[e.task]? = some r ∧ Prog.Path (S.handler r) (sys.calls e.task) q ∧
      e.call ∈ sys.calls e.task := by
  have hlt := h.task_lt e he
  have hr := List.getElem?_eq_getElem hlt
  have hq := List.getElem?_eq_getElem (h.length_eq ▸ hlt)
  exact ⟨_, _, hr, h.path _ _ _ hr hq, mem_calls.mpr ⟨e, he, rfl, rfl⟩⟩

/-- A call that only the program of one request makes, at most once, is made at
most once. -/
theorem Traced.countP_le_one (h : Traced S sys) (put : (op : Op) × Ans op → Bool) (mine : ρ → Prop)
    (hmine : ∀ r cs q, Prog.Path (S.handler r) cs q → ∀ c ∈ cs, put c = true → mine r)
    (honce : ∀ r cs q, Prog.Path (S.handler r) cs q → cs.countP put ≤ 1)
    (hone : ∀ (i j : Nat) r r', sys.requests[i]? = some r → sys.requests[j]? = some r' →
      mine r → mine r' → i = j) :
    (sys.trace.countP fun e => put e.call) ≤ 1 := by
  by_cases hex : ∃ e ∈ sys.trace, put e.call = true
  · obtain ⟨e, he, hput⟩ := hex
    obtain ⟨r, q, hr, hpath, hmem⟩ := h.owner he
    have hm := hmine _ _ _ hpath _ hmem hput
    have hcount : (sys.trace.countP fun e => put e.call) = (sys.calls e.task).countP put := by
      rw [calls, List.countP_map, List.countP_filter]
      refine List.countP_congr fun e' he' => ?_
      simp only [Function.comp_apply, Bool.and_eq_true, decide_eq_true_eq]
      refine ⟨fun hput' => ⟨hput', ?_⟩, And.left⟩
      obtain ⟨r', q', hr', hpath', hmem'⟩ := h.owner he'
      exact hone _ _ _ _ hr' hr (hmine _ _ _ hpath' _ hmem' hput') hm
    rw [hcount]
    exact honce _ _ _ hpath
  · rw [List.countP_eq_zero.mpr]
    · exact Nat.zero_le 1
    · intro e he hput
      exact hex ⟨e, he, hput⟩

end System

/-- At most one element has the property. -/
theorem eq_of_countP_le_one {β : Type} {p : β → Bool} {l : List β} (h : l.countP p ≤ 1) {x y : β}
    (hx : x ∈ l) (hy : y ∈ l) (hpx : p x = true) (hpy : p y = true) : x = y := by
  rw [List.countP_eq_length_filter] at h
  have hx' := List.mem_filter.mpr ⟨hx, hpx⟩
  have hy' := List.mem_filter.mpr ⟨hy, hpy⟩
  match hl : l.filter p with
  | [] =>
      rw [hl] at hx'
      cases hx'
  | [z] =>
      rw [hl, List.mem_singleton] at hx' hy'
      rw [hx', hy']
  | _ :: _ :: _ =>
      rw [hl] at h
      simp at h

end

end Kyber.Lib
