import Kyber.Api.Rpc

/-!
# Following a handler

A handler is taken apart call by call: along a path of the calls it has made, and
along its evaluation when it runs alone.
-/

namespace Kyber.Api

open Kyber.Lib Prog

/-! ## Paths -/

abbrev Calls := List ((op : Op) × Ans op)

section

variable {op : Op} {code : Code} {message : String} {k : op.Result → Handler} {cs : Calls}

/-- A query is an attempt that is refused if it fails. -/
theorem query_eq_attempt (op : Op) (code : Code) (message : String) (k : op.Result → Handler) :
    query op code message k = attempt op (.error (.status code message)) k := by
  refine congrArg (Prog.call op) (funext fun a => ?_)
  cases a <;> rfl

/-- A query is answered, or fails and ends the handler. -/
theorem path_query {q : Handler} (h : Path (query op code message k) cs q) :
    cs = [] ∨ (∃ e, cs = [⟨op, .error e⟩] ∧ q = refuse code message) ∨
      ∃ a cs', cs = ⟨op, .ok a⟩ :: cs' ∧ Path (k a) cs' q := by
  rw [query_eq_attempt] at h
  exact (path_attempt h).imp_left And.left

/-- A handler that has succeeded had its query answered. -/
theorem path_query_ok {r : Response} (h : Path (query op code message k) cs (.ret (.ok r))) :
    ∃ a cs', cs = ⟨op, .ok a⟩ :: cs' ∧ Path (k a) cs' (.ret (.ok r)) := by
  rw [query_eq_attempt] at h
  exact path_attempt_ret (by simp) h

/-- A handler that is at another call had its query answered. -/
theorem path_query_call {op' : Op} (hne : op ≠ op') {k' : Ans op' → Handler}
    (h : Path (query op code message k) cs (.call op' k')) :
    ∃ a cs', cs = ⟨op, .ok a⟩ :: cs' ∧ Path (k a) cs' (.call op' k') := by
  rw [query_eq_attempt] at h
  exact path_attempt_call hne h

theorem makes_query {P : Op → Prop} (hop : P op) (hk : ∀ a, Makes P (k a)) :
    Makes P (query op code message k) := by
  rw [query_eq_attempt]
  exact makes_attempt hop hk

end

theorem path_refuse_ok {code : Code} {message : String} {cs : Calls} {r : Response}
    (h : Path (refuse code message) cs (.ret (.ok r))) : False := by
  cases (path_ret h).2

/-! ## Evaluation -/

theorem eval_query (st : Store) (op : Op) (code : Code) (message : String)
    (k : op.Result → Handler) :
    (query op code message k).eval Store.perform st =
      match (st.perform op).2 with
      | .error _ => ((st.perform op).1, .error (.status code message))
      | .ok a => (k a).eval Store.perform (st.perform op).1 := by
  rw [query_eq_attempt]
  refine (eval_attempt st).trans ?_
  cases (st.perform op).2 <;> rfl

/-! ## Calls that leave a collection as it is -/

theorem users_serve {op : Op} (hop : ∀ id list, op ≠ .setModerators id list) (st : Store)
    (outcome : Outcome) : (st.serve outcome op).1.users = st.users := by
  have hperform : (st.perform op).1.users = st.users := by
    cases op with
    | setModerators id list => exact absurd rfl (hop id list)
    | createJoinToken _ | deleteJoinToken _ | createServer _ | createPunishment _
    | createReport _ =>
        simp only [Store.perform]
        split <;> rfl
    | _ => rfl
  cases outcome with
  | answered | unacknowledged => exact hperform
  | failed => rfl

end Kyber.Api
