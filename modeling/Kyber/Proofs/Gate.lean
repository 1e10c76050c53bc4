import Kyber.Api.Interceptor

/-!
# The authentication gate

The tables cover every handler that takes a user and is unary, but for `ResetToken` and
for `GetStats` with personal statistics. `UploadMod` is in the tables, but a stream. For
all other calls the handler has the user whose token came with the request.
-/

namespace Kyber.Api.Gate

/-- The value of the header. -/
def Request.authorization (request : Request) : Option String :=
  request.metadata.bind fun md => (md "authorization").head?

/-- The tables ask for a user. -/
def Rpc.isProtected (rpc : Rpc) : Bool := rpc.isIn authMethods

structure Gated (store : UserStore) (rpc : Rpc) (request : Request) : Prop where
  user : ∀ ctx, serve store rpc request = .handled ctx → rpc.takesUser request.source = true →
    ∃ user ∈ store.users, ctx.user = some user ∧ request.authorization = some user.token
  denied : rpc.isProtected = true →
    (∀ user ∈ store.users, request.authorization ≠ some user.token) →
    ∀ ctx, serve store rpc request ≠ .handled ctx

/-! ## Tables -/

theorem takesUser_personal {rpc : Rpc} {source : StatsSource} (h : rpc.takesUser source = true) :
    rpc.takesUser .personal = true := by
  cases rpc <;> first | rfl | exact h

theorem isProtected_or (rpc : Rpc) :
    rpc.takesUser .personal = true →
      rpc.isProtected = true ∨ rpc = .resetToken ∨ rpc = .getStats := by
  cases rpc <;> decide

/-- Every handler that takes a user is in the tables, but for two. -/
theorem isProtected_of_takesUser {rpc : Rpc} {source : StatsSource}
    (h : rpc.takesUser source = true) (hreset : rpc ≠ .resetToken)
    (hstats : ¬ (rpc = .getStats ∧ source = .personal)) : rpc.isProtected = true := by
  rcases isProtected_or rpc (takesUser_personal h) with hprotected | rfl | rfl
  · exact hprotected
  · exact absurd rfl hreset
  · exact absurd ⟨rfl, by simpa [Rpc.takesUser] using h⟩ hstats

theorem isStream_eq_false (rpc : Rpc) :
    rpc.isProtected = true → rpc ≠ .uploadMod → rpc.isStream = false := by
  cases rpc <;> decide

theorem not_optional (rpc : Rpc) :
    rpc.isProtected = true → optionalAuthMethods.contains (.method rpc) = false := by
  cases rpc <;> decide

/-! ## The interceptor -/

variable {store : UserStore} {rpc : Rpc} {request : Request}

theorem mem_of_getByToken {token : String} {user : UserDocument}
    (h : store.getByToken token = .ok (some user)) : user ∈ store.users ∧ user.token = token := by
  unfold UserStore.getByToken at h
  split at h
  · cases h
  · rw [Except.ok.injEq] at h
    exact ⟨List.mem_of_find?_eq_some h, by simpa using List.find?_some h⟩

/-- A call that the tables have goes through with the user of its token, or not at all. -/
theorem user_of_handled {ctx : Context} (hprotected : rpc.isProtected = true)
    (h : authInterceptor store rpc request.metadata {} = .handled ctx) :
    ∃ user ∈ store.users, ctx.user = some user ∧ request.authorization = some user.token := by
  have hlisted : rpc.isIn authMethods = true := hprotected
  simp only [authInterceptor, hlisted, Bool.not_true, Bool.false_and, Bool.false_eq_true, if_false]
    at h
  split at h
  · cases h
  · next md hmd =>
      split at h
      · rw [not_optional rpc hprotected] at h
        cases h
      · next token tokens htokens =>
          split at h
          · cases h
          · cases h
          · next user huser =>
              cases h
              obtain ⟨hmem, htoken⟩ := mem_of_getByToken huser
              refine ⟨user, hmem, rfl, ?_⟩
              rw [Request.authorization, hmd, Option.bind_some, htokens, List.head?_cons, htoken]

theorem gated_of_isProtected (hprotected : rpc.isProtected = true) (hstream : rpc ≠ .uploadMod) :
    Gated store rpc request := by
  have hserve : serve store rpc request =
      authInterceptor store rpc request.metadata {} := by
    rw [serve, isStream_eq_false rpc hprotected hstream]
    rfl
  refine ⟨fun ctx h _ => ?_, fun _ hunknown ctx h => ?_⟩
  · rw [hserve] at h
    exact user_of_handled hprotected h
  · rw [hserve] at h
    obtain ⟨user, hmem, -, htoken⟩ := user_of_handled hprotected h
    exact hunknown user hmem htoken

/-- A handler that takes a user and runs without one. -/
theorem not_gated_of_handled (htakes : rpc.takesUser request.source = true)
    (h : serve store rpc request = .handled {}) : ¬ Gated store rpc request := by
  intro hgated
  obtain ⟨user, -, huser, -⟩ := hgated.user {} h htakes
  cases huser

theorem serve_of_not_listed (hauth : rpc.isIn authMethods = false)
    (hoptional : rpc.isIn optionalAuthMethods = false) (store : UserStore)
    (request : Request) : serve store rpc request = .handled {} := by
  unfold serve authInterceptor
  rw [hauth, hoptional]
  split <;> rfl

/-- The gate holds for a call exactly if it is none of the three that it misses. -/
theorem gated_iff (store : UserStore) (rpc : Rpc) (request : Request) :
    Gated store rpc request ↔
      rpc ≠ .uploadMod ∧ rpc ≠ .resetToken ∧ ¬ (rpc = .getStats ∧ request.source = .personal) := by
  constructor
  · intro hgated
    refine ⟨?_, ?_, ?_⟩
    · rintro rfl
      exact not_gated_of_handled rfl rfl hgated
    · rintro rfl
      exact not_gated_of_handled rfl
        (serve_of_not_listed (by decide) (by decide) store request) hgated
    · rintro ⟨rfl, hsource⟩
      exact not_gated_of_handled (by rw [Rpc.takesUser, hsource]; rfl)
        (serve_of_not_listed (by decide) (by decide) store request) hgated
  · rintro ⟨hstream, hreset, hstats⟩
    by_cases hprotected : rpc.isProtected = true
    · exact gated_of_isProtected hprotected hstream
    · refine ⟨fun ctx _ htakes => ?_, fun h => absurd h hprotected⟩
      exact absurd (isProtected_of_takesUser htakes hreset hstats) hprotected

/-- `ResetToken` with the token of a user. -/
theorem resetToken_not_gated :
    ¬ ∀ (store : UserStore) (rpc : Rpc) (request : Request), Gated store rpc request := by
  intro h
  have hgated := h { users := [{ id := "1", token := "t", name := "a" }] } .resetToken
    { metadata := some fun _ => ["t"] }
  refine not_gated_of_handled rfl ?_ hgated
  exact serve_of_not_listed (by decide) (by decide) _ _

end Kyber.Api.Gate
