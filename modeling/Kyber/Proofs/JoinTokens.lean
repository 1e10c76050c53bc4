import Kyber.Api.JoinTokens
import Kyber.Proofs.Rpc

/-!
# What becomes of join tokens

A consumed token is one that was issued, except for the empty string; it is
consumed once, whatever runs at the same time; and a call for a token that is
refused may have deleted the user's others.

All three are read off the calls that a handler makes. A handler's calls are a
path through its program, so the ways a call can succeed, and what it can insert,
are found by following the program once (`consume_path`, `path_inserts`). The
first is then an invariant over calls made one after the other, and the second a
count over the trace of an interleaving.
-/

namespace Kyber.Api

open Kyber.Lib Prog

/-! ## Paths through the handlers -/

theorem admitUser_path {tokenModel : JoinTokenModel} {user : UserModel} {cs : Calls} {r : Response}
    (h : Path (admitUser tokenModel user) cs (.ret (.ok r))) :
    r = .player user.id user.name ∧
      cs = [⟨.deleteJoinToken tokenModel.id, .ok ()⟩, ⟨.updateUser user.id, .ok ()⟩] := by
  obtain ⟨⟨⟩, cs₁, rfl, h₁⟩ := path_query_ok h
  obtain ⟨⟨⟩, cs₂, rfl, h₂⟩ := path_query_ok h₁
  obtain ⟨rfl, hr⟩ := path_ret h₂
  cases hr
  exact ⟨rfl, rfl⟩

theorem checkServer_path {tokenModel : JoinTokenModel} {user : UserModel} {server : String}
    {cs : Calls} {r : Response} (h : Path (checkServer tokenModel user server) cs (.ret (.ok r))) :
    ∃ found : ServerModel, r = .player user.id user.name ∧ found.id = server ∧
      cs = [⟨.serverByID tokenModel.server, .ok (some found)⟩,
        ⟨.banForServer found.hostID user.id, .ok none⟩,
        ⟨.deleteJoinToken tokenModel.id, .ok ()⟩, ⟨.updateUser user.id, .ok ()⟩] := by
  obtain ⟨found, cs₁, rfl, h₁⟩ := path_query_ok h
  cases found with
  | none =>
      obtain ⟨_, _, -, h₂⟩ := path_query_ok h₁
      exact (path_refuse_ok h₂).elim
  | some found =>
      simp only at h₁
      split at h₁
      · exact (path_refuse_ok h₁).elim
      · next hid =>
          obtain ⟨ban, cs₂, rfl, h₂⟩ := path_query_ok h₁
          cases ban with
          | some ban => exact (path_refuse_ok h₂).elim
          | none =>
              obtain ⟨rfl, rfl⟩ := admitUser_path h₂
              exact ⟨found, rfl, not_not.mp hid, rfl⟩

/-- The only way for a token to be consumed. -/
theorem consume_path {token server : String} {cs : Calls} {r : Response}
    (h : Path (consumeJoinToken token server) cs (.ret (.ok r))) :
    ∃ (tokenModel : JoinTokenModel) (user : UserModel) (found : ServerModel),
      r = .player user.id user.name ∧ found.id = server ∧
      cs = [⟨.joinTokenByToken token, .ok (some tokenModel)⟩,
        ⟨.userByID tokenModel.user, .ok (some user)⟩,
        ⟨.globalBan user.id, .ok none⟩,
        ⟨.serverByID tokenModel.server, .ok (some found)⟩,
        ⟨.banForServer found.hostID user.id, .ok none⟩,
        ⟨.deleteJoinToken tokenModel.id, .ok ()⟩,
        ⟨.updateUser user.id, .ok ()⟩] := by
  obtain ⟨tokenModel, cs₁, rfl, h₁⟩ := path_query_ok h
  cases tokenModel with
  | none => exact (path_refuse_ok h₁).elim
  | some tokenModel =>
      obtain ⟨user, cs₂, rfl, h₂⟩ := path_query_ok h₁
      cases user with
      | none => exact (path_refuse_ok h₂).elim
      | some user =>
          obtain ⟨ban, cs₃, rfl, h₃⟩ := path_query_ok h₂
          cases ban with
          | some ban => exact (path_refuse_ok h₃).elim
          | none =>
              obtain ⟨found, rfl, hid, rfl⟩ := checkServer_path h₃
              exact ⟨tokenModel, user, found, rfl, hid, rfl⟩

/-- The documents that calls insert, whether or not the database answers. -/
def inserts (cs : Calls) : List JoinTokenModel :=
  cs.filterMap fun c =>
    match c.1 with
    | .createJoinToken token => some token
    | _ => none

/-- The document that `CreateJoinToken` inserts. -/
def Generated.joinToken (gen : Generated) (token : SignedToken) (user : UserModel)
    (server : ServerModel) : JoinTokenModel where
  id := gen.id
  token := token.text
  user := user.id
  server := server.id
  created := gen.now

def Op.isInsert : Op → Bool
  | .createJoinToken _ => true
  | _ => false

theorem inserts_cons {op : Op} (hop : op.isInsert = false) (a : Ans op) (cs : Calls) :
    inserts (⟨op, a⟩ :: cs) = inserts cs := by
  cases op <;> first | rfl | cases hop

/-- A query that inserts nothing: the rest of the handler decides. -/
theorem path_query_inserts {op : Op} (hop : op.isInsert = false) {code : Code} {message : String}
    {k : op.Result → Handler} {cs : Calls} {q : Handler}
    (h : Path (query op code message k) cs q) :
    inserts cs = [] ∨ ∃ a cs', cs = ⟨op, .ok a⟩ :: cs' ∧ inserts cs = inserts cs' ∧
      Path (k a) cs' q := by
  rcases path_query h with rfl | ⟨e, rfl, -⟩ | ⟨a, cs', rfl, hpath⟩
  · exact .inl rfl
  · exact .inl (inserts_cons hop _ [])
  · exact .inr ⟨a, cs', rfl, inserts_cons hop _ cs', hpath⟩

theorem path_ret_inserts {r : Reply} {cs : Calls} {q : Handler} (h : Path (.ret r) cs q) :
    inserts cs = [] := by
  rw [(path_ret h).1]
  rfl

/-- The calls insert at most the document, and the handler answers with `r` when
it has been inserted. -/
def InsertsOnly (cs : Calls) (q : Handler) (doc : JoinTokenModel) (r : Reply) : Prop :=
  inserts cs = [doc] ∧ (⟨.createJoinToken doc, .ok ()⟩ ∈ cs → q = .ret r)

theorem InsertsOnly.cons {op : Op} (hop : op.isInsert = false) {a : Ans op} {cs : Calls}
    {q : Handler} {doc : JoinTokenModel} {r : Reply} (h : InsertsOnly cs q doc r) :
    InsertsOnly (⟨op, a⟩ :: cs) q doc r := by
  refine ⟨(inserts_cons hop a cs).trans h.1, fun hmem => h.2 ?_⟩
  rcases List.mem_cons.mp hmem with heq | hmem
  · have hop' : Op.createJoinToken doc = op := congrArg Sigma.fst heq
    subst hop'
    cases hop
  · exact hmem

theorem issueJoinToken_inserts {user : UserModel} {server : ServerModel} {gen : Generated}
    {cs : Calls} {q : Handler} (h : Path (issueJoinToken user server gen) cs q) :
    inserts cs = [] ∨ ∃ token, gen.signed = some token ∧
      InsertsOnly cs q (gen.joinToken token user server) (.ok (.joinToken token.text)) := by
  unfold issueJoinToken at h
  split at h
  · exact .inl (path_ret_inserts h)
  · next token hsigned =>
      rcases path_query h with rfl | ⟨e, rfl, -⟩ | ⟨⟨⟩, cs', rfl, hpath⟩
      · exact .inl rfl
      · refine .inr ⟨token, hsigned, rfl, fun hmem => ?_⟩
        rw [List.mem_singleton] at hmem
        cases hmem
      · obtain ⟨rfl, rfl⟩ := path_ret hpath
        exact .inr ⟨token, hsigned, rfl, fun _ => rfl⟩

theorem admitToServer_inserts {user : UserModel} {req : JoinTokenRequest} {server : ServerModel}
    {gen : Generated} {cs : Calls} {q : Handler}
    (h : Path (admitToServer user req server gen) cs q) :
    inserts cs = [] ∨ ∃ token, gen.signed = some token ∧
      InsertsOnly cs q (gen.joinToken token user server) (.ok (.joinToken token.text)) := by
  rcases path_query_inserts rfl h with hnone | ⟨host, cs', rfl, hins, hpath⟩
  · exact .inl hnone
  · rw [hins]
    cases host with
    | none => exact .inl (path_ret_inserts hpath)
    | some host =>
        simp only at hpath
        split at hpath
        · exact .inl (path_ret_inserts hpath)
        · split at hpath
          · exact .inl (path_ret_inserts hpath)
          · rcases issueJoinToken_inserts hpath with hnone | ⟨token, hsigned, honly⟩
            · exact .inl hnone
            · exact .inr ⟨token, hsigned, honly.cons rfl⟩

theorem deleteExisting_inserts {rest : Handler} {tokens : List JoinTokenModel} {cs : Calls}
    {q : Handler} (h : Path (deleteExisting rest tokens) cs q) :
    inserts cs = [] ∨ ∃ cs', Path rest cs' q ∧ inserts cs = inserts cs' ∧
      ∀ doc r, InsertsOnly cs' q doc r → InsertsOnly cs q doc r := by
  induction tokens generalizing cs with
  | nil => exact .inr ⟨cs, h, rfl, fun _ _ => id⟩
  | cons token tokens ih =>
      rcases path_query_inserts rfl h with hnone | ⟨⟨⟩, cs', rfl, hins, hpath⟩
      · exact .inl hnone
      · rcases ih hpath with hnone | ⟨cs'', hrest, hsame, honly⟩
        · exact .inl (hins.trans hnone)
        · exact .inr ⟨cs'', hrest, hins.trans hsame, fun doc r h' => (honly doc r h').cons rfl⟩

theorem createJoinToken_inserts {user : UserModel} {req : JoinTokenRequest} {gen : Generated}
    {cs : Calls} {q : Handler} (h : Path (createJoinToken user req gen) cs q) :
    inserts cs = [] ∨ ∃ token server, gen.signed = some token ∧
      ⟨.serverByID req.server, .ok (some server)⟩ ∈ cs ∧
      InsertsOnly cs q (gen.joinToken token user server) (.ok (.joinToken token.text)) := by
  rcases path_query_inserts rfl h with hnone | ⟨server, cs₁, rfl, hins, h₁⟩
  · exact .inl hnone
  rw [hins]
  cases server with
  | none => exact .inl (path_ret_inserts h₁)
  | some server =>
  rcases path_query_inserts rfl h₁ with hnone | ⟨ban, cs₂, rfl, hins₂, h₂⟩
  · exact .inl hnone
  rw [hins₂]
  cases ban with
  | some ban =>
      simp only [refuseBanned] at h₂
      split at h₂ <;> exact .inl (path_ret_inserts h₂)
  | none =>
  rcases path_query_inserts rfl h₂ with hnone | ⟨existing, cs₃, rfl, hins₃, h₃⟩
  · exact .inl hnone
  rw [hins₃]
  rcases deleteExisting_inserts h₃ with hnone | ⟨cs₄, h₄, hins₄, honly⟩
  · exact .inl hnone
  rcases admitToServer_inserts h₄ with hnone | ⟨token, hsigned, hdoc⟩
  · exact .inl (hins₄.trans hnone)
  · exact .inr ⟨token, server, hsigned, by simp,
      (((honly _ _ hdoc).cons rfl).cons rfl).cons rfl⟩

/-- The handler inserts no join token. -/
def InsertFree (p : Handler) : Prop := ∀ cs q, Path p cs q → inserts cs = []

theorem InsertFree.ret (r : Reply) : InsertFree (.ret r) := fun _ _ => path_ret_inserts

theorem InsertFree.query {op : Op} (hop : op.isInsert = false) {code : Code} {message : String}
    {k : op.Result → Handler} (hk : ∀ a, InsertFree (k a)) :
    InsertFree (query op code message k) := by
  intro cs q h
  rcases path_query_inserts hop h with hnone | ⟨a, cs', -, hins, h'⟩
  · exact hnone
  · exact hins.trans (hk a _ _ h')

theorem publishServer_insertFree (user : UserModel) (req : RegisterServerRequest)
    (gen : Generated) (proxyToken : SignedToken) :
    InsertFree (publishServer user req gen proxyToken) := by
  unfold publishServer
  split
  · exact .ret _
  · refine .query rfl fun _ => ?_
    intro cs q h
    rcases path_call h with ⟨rfl, -⟩ | ⟨a, cs', rfl, h'⟩
    · rfl
    · exact (inserts_cons rfl a cs').trans (path_ret_inserts h')

theorem checkServer_insertFree (tokenModel : JoinTokenModel) (user : UserModel) (server : String) :
    InsertFree (checkServer tokenModel user server) := by
  refine .query rfl fun found => ?_
  cases found with
  | none => exact .query rfl fun _ => .ret _
  | some found =>
      simp only
      split
      · exact .ret _
      · refine .query rfl fun ban => ?_
        cases ban with
        | some ban => exact .ret _
        | none => exact .query rfl fun _ => .query rfl fun _ => .ret _

theorem consumeJoinToken_insertFree (token server : String) :
    InsertFree (consumeJoinToken token server) := by
  refine .query rfl fun tokenModel => ?_
  cases tokenModel with
  | none => exact .ret _
  | some tokenModel =>
      refine .query rfl fun user => ?_
      cases user with
      | none => exact .ret _
      | some user =>
          refine .query rfl fun ban => ?_
          cases ban with
          | some ban => exact .ret _
          | none => exact checkServer_insertFree tokenModel user server

/-- The document that `RegisterServer` inserts. -/
def Generated.proxyJoinToken (gen : Generated) (proxyToken : SignedToken) (user : UserModel) :
    JoinTokenModel where
  id := proxyToken.text
  token := ""
  user := user.id
  server := gen.id
  created := gen.now

theorem registerServer_inserts {user : UserModel} {req : RegisterServerRequest} {gen : Generated}
    {cs : Calls} {q : Handler} (h : Path (registerServer user req gen) cs q) :
    inserts cs = [] ∨ ∃ proxyToken, gen.signed = some proxyToken ∧
      inserts cs = [gen.proxyJoinToken proxyToken user] := by
  rcases path_query_inserts rfl h with hnone | ⟨hosted, cs₁, rfl, hins, h₁⟩
  · exact .inl hnone
  rw [hins]
  simp only at h₁
  split at h₁
  · exact .inl (path_ret_inserts h₁)
  split at h₁
  · exact .inl (path_ret_inserts h₁)
  split at h₁
  · exact .inl (path_ret_inserts h₁)
  · next proxyToken hsigned =>
      rcases path_query h₁ with rfl | ⟨e, rfl, -⟩ | ⟨⟨⟩, cs₂, rfl, h₂⟩
      · exact .inl rfl
      · exact .inr ⟨proxyToken, hsigned, rfl⟩
      · refine .inr ⟨proxyToken, hsigned, ?_⟩
        exact congrArg (List.cons _) (publishServer_insertFree user req gen proxyToken _ _ h₂)

/-- A handler inserts at most one document, under the id it has generated. -/
theorem path_inserts {r : Request} {cs : Calls} {q : Handler} (h : Path r.handler cs q) :
    inserts cs = [] ∨ ∃ doc, inserts cs = [doc] ∧ r.documentID = some doc.id := by
  cases r with
  | create user req gen =>
      rcases createJoinToken_inserts h with hnone | ⟨token, server, -, -, hdoc, -⟩
      · exact .inl hnone
      · exact .inr ⟨_, hdoc, rfl⟩
  | consume token server => exact .inl (consumeJoinToken_insertFree token server _ _ h)
  | register user req gen =>
      rcases registerServer_inserts h with hnone | ⟨proxyToken, hsigned, hdoc⟩
      · exact .inl hnone
      · refine .inr ⟨_, hdoc, ?_⟩
        rw [Request.documentID, hsigned]
        rfl

theorem admitToServer_ok {user : UserModel} {req : JoinTokenRequest} {server : ServerModel}
    {gen : Generated} {cs : Calls} {r : Response}
    (h : Path (admitToServer user req server gen) cs (.ret (.ok r))) :
    ∃ token, gen.signed = some token ∧ r = .joinToken token.text := by
  obtain ⟨host, cs₁, -, h₁⟩ := path_query_ok h
  cases host with
  | none => exact (path_refuse_ok h₁).elim
  | some host =>
      simp only at h₁
      split at h₁
      · exact (path_refuse_ok h₁).elim
      split at h₁
      · exact (path_refuse_ok h₁).elim
      unfold issueJoinToken at h₁
      split at h₁
      · exact (path_refuse_ok h₁).elim
      · next token hsigned =>
          obtain ⟨_, cs₂, -, h₂⟩ := path_query_ok h₁
          cases (path_ret h₂).2
          exact ⟨token, hsigned, rfl⟩

theorem deleteExisting_ok {rest : Handler} {tokens : List JoinTokenModel} {cs : Calls}
    {r : Response} (h : Path (deleteExisting rest tokens) cs (.ret (.ok r))) :
    ∃ cs', Path rest cs' (.ret (.ok r)) := by
  induction tokens generalizing cs with
  | nil => exact ⟨cs, h⟩
  | cons token tokens ih =>
      obtain ⟨_, cs₁, -, h₁⟩ := path_query_ok h
      exact ih h₁

/-- What `CreateJoinToken` returns is the token it has signed. -/
theorem createJoinToken_ok {user : UserModel} {req : JoinTokenRequest} {gen : Generated}
    {cs : Calls} {r : Response} (h : Path (createJoinToken user req gen) cs (.ret (.ok r))) :
    ∃ token, gen.signed = some token ∧ r = .joinToken token.text := by
  obtain ⟨server, cs₁, -, h₁⟩ := path_query_ok h
  cases server with
  | none => exact (path_refuse_ok h₁).elim
  | some server =>
      obtain ⟨ban, cs₂, -, h₂⟩ := path_query_ok h₁
      cases ban with
      | some ban =>
          simp only [refuseBanned] at h₂
          split at h₂ <;> cases (path_ret h₂).2
      | none =>
          obtain ⟨existing, cs₃, -, h₃⟩ := path_query_ok h₂
          obtain ⟨cs₄, h₄⟩ := deleteExisting_ok h₃
          exact admitToServer_ok h₄

/-! ## Calls on the store -/

theorem mem_inserts {cs : Calls} {doc : JoinTokenModel} {a : Ans (.createJoinToken doc)}
    (h : ⟨.createJoinToken doc, a⟩ ∈ cs) : doc ∈ inserts cs :=
  List.mem_filterMap.mpr ⟨_, h, rfl⟩

/-- A document that a call leaves was there, or the call has inserted it. -/
theorem mem_perform {st : Store} {op : Op} {doc : JoinTokenModel}
    (h : doc ∈ (st.perform op).1.joinTokens) :
    doc ∈ st.joinTokens ∨
      (⟨op, (st.perform op).2⟩ : (op : Op) × Ans op) = ⟨.createJoinToken doc, .ok ()⟩ := by
  cases op with
  | createJoinToken token =>
      simp only [Store.perform] at h ⊢
      split at h
      · exact .inl h
      · next hnew =>
          rcases List.mem_append.mp h with hold | hdoc
          · exact .inl hold
          · rw [List.mem_singleton] at hdoc
            subst hdoc
            right
            rw [if_neg hnew]
  | deleteJoinToken id =>
      simp only [Store.perform] at h
      split at h
      · exact .inl (List.mem_of_mem_eraseP h)
      · exact .inl h
  | createServer _ | createPunishment _ | createReport _ =>
      simp only [Store.perform] at h
      split at h <;> exact .inl h
  | _ => exact .inl h

/-- What the calls of a handler that runs alone say about the store. -/
structure Evaluated (st : Store) (cs : Calls) (st' : Store) : Prop where
  tokens : ∀ doc ∈ st'.joinTokens, doc ∈ st.joinTokens ∨ ⟨.createJoinToken doc, .ok ()⟩ ∈ cs
  answered : ∀ c ∈ cs, ∃ st₀ : Store, c.2 = (st₀.perform c.1).2
  start : cs = [] → st' = st
  first : ∀ c ∈ cs.head?, c.2 = (st.perform c.1).2

theorem eval_calls (st : Store) (p : Handler) :
    ∃ cs, Path p cs (.ret (p.eval Store.perform st).2) ∧
      Evaluated st cs (p.eval Store.perform st).1 := by
  refine eval_rule (Evaluated st) ?_ ⟨fun _ => .inl, by simp, fun _ => rfl, by simp⟩ p
  intro cs st' hcs op
  refine ⟨?_, ?_, by simp, ?_⟩
  · intro doc hdoc
    rcases mem_perform hdoc with hold | hnew
    · rcases hcs.tokens doc hold with hold | hmem
      · exact .inl hold
      · exact .inr (List.mem_append_left _ hmem)
    · exact .inr (List.mem_append_right _ (by rw [hnew]; simp))
  · intro c hc
    rcases List.mem_append.mp hc with hc | hc
    · exact hcs.answered c hc
    · rw [List.mem_singleton] at hc
      subst hc
      exact ⟨st', rfl⟩
  · intro c hc
    cases cs with
    | nil =>
        cases hcs.start rfl
        simp only [List.nil_append, List.head?_cons, Option.mem_def, Option.some.injEq] at hc
        subst hc
        rfl
    | cons c' cs => exact hcs.first c hc

/-! ## One call after the other: only issued tokens are consumed -/

/-- An answered `CreateJoinToken` has returned the token to the user, for the
server. -/
def Issued (hist : History) (token userID server : String) : Prop :=
  ∃ user req gen, (Request.create user req gen, .ok (.joinToken token)) ∈ hist ∧
    user.id = userID ∧ req.server = server

theorem Issued.mono {hist : History} {token userID server : String}
    (h : Issued hist token userID server) (more : History) :
    Issued (hist ++ more) token userID server := by
  obtain ⟨user, req, gen, hmem, hu, hs⟩ := h
  exact ⟨user, req, gen, List.mem_append_left _ hmem, hu, hs⟩

/-- The join tokens in the store were issued, those of registrations apart. -/
structure Genuine (s : Store × History) : Prop where
  tokens : ∀ doc ∈ s.1.joinTokens, doc.token = "" ∨ Issued s.2 doc.token doc.user doc.server
  replies : ∀ token userID server, Issued s.2 token userID server → token ≠ ""

theorem serverByID_answer {st : Store} {id : String} {server : ServerModel}
    (h : (.ok (some server) : Ans (.serverByID id)) = (st.perform (.serverByID id)).2) :
    server.id = id := by
  simp only [Store.perform, Except.ok.injEq] at h
  simpa using List.find?_some h.symm

theorem userByID_answer {st : Store} {id : String} {user : UserModel}
    (h : (.ok (some user) : Ans (.userByID id)) = (st.perform (.userByID id)).2) :
    user.id = id := by
  simp only [Store.perform, Except.ok.injEq] at h
  simpa using List.find?_some h.symm

/-- A document that a call has left in the store and was not there before. -/
theorem inserted_genuine {st st' : Store} {r : Request} {cs : Calls} {reply : Reply}
    (hpath : Path r.handler cs (.ret reply)) (hcs : Evaluated st cs st') {doc : JoinTokenModel}
    (hdoc : ⟨.createJoinToken doc, .ok ()⟩ ∈ cs) (hist : History) :
    doc.token = "" ∨ Issued (hist ++ [(r, reply)]) doc.token doc.user doc.server := by
  have hmem := mem_inserts hdoc
  cases r with
  | create user req gen =>
      rcases createJoinToken_inserts hpath with hnone | ⟨token, server, -, hserver, hins, hret⟩
      · rw [hnone] at hmem
        cases hmem
      · rw [hins, List.mem_singleton] at hmem
        subst hmem
        cases hret hdoc
        obtain ⟨st₀, hst₀⟩ := hcs.answered _ hserver
        exact .inr ⟨user, req, gen, by simp [Generated.joinToken], rfl,
          (serverByID_answer hst₀).symm⟩
  | consume token server =>
      rw [consumeJoinToken_insertFree token server _ _ hpath] at hmem
      cases hmem
  | register user req gen =>
      rcases registerServer_inserts hpath with hnone | ⟨proxyToken, -, hins⟩
      · rw [hnone] at hmem
        cases hmem
      · rw [hins, List.mem_singleton] at hmem
        subst hmem
        exact .inl rfl

theorem Genuine.step {s s' : Store × History} {a : SerialAction} (hs : Genuine s)
    (h : serialStep s a = some s') : Genuine s' := by
  cases a with
  | change c =>
      cases h
      refine ⟨fun doc hdoc => hs.tokens doc ?_, hs.replies⟩
      cases c with
      | expire => exact List.mem_of_mem_filter hdoc
      | others users servers punishments now => exact hdoc
  | request r =>
      cases h
      obtain ⟨cs, hpath, hcs⟩ := eval_calls s.1 r.handler
      constructor
      · intro doc hdoc
        rcases hcs.tokens doc hdoc with hold | hnew
        · exact (hs.tokens doc hold).imp id (Issued.mono · _)
        · exact inserted_genuine hpath hcs hnew s.2
      · rintro token userID server ⟨user, req, gen, hmem, hu, hserver⟩
        rcases List.mem_append.mp hmem with hold | hnew
        · exact hs.replies token userID server ⟨user, req, gen, hold, hu, hserver⟩
        · rw [List.mem_singleton] at hnew
          obtain ⟨rfl, hreply⟩ := Prod.mk.injEq .. ▸ hnew
          rw [← hreply] at hpath
          obtain ⟨signed, -, hr⟩ := createJoinToken_ok hpath
          cases hr
          exact signed.nonempty

theorem Genuine.init (st : Store) : Genuine ({ st with joinTokens := [] }, []) := by
  refine ⟨by simp, ?_⟩
  rintro token userID server ⟨user, req, gen, hmem, -⟩
  cases hmem

/-- The document that a consumed token was found in. -/
theorem consumed_document {st : Store} {token server : String} {r : Response}
    (h : ((consumeJoinToken token server).eval Store.perform st).2 = .ok r) :
    ∃ doc ∈ st.joinTokens, doc.token = token ∧ doc.server = server ∧
      ∃ name, r = .player doc.user name := by
  obtain ⟨cs, hpath, hcs⟩ := eval_calls st (consumeJoinToken token server)
  rw [h] at hpath
  obtain ⟨doc, user, found, rfl, rfl, rfl⟩ := consume_path hpath
  obtain ⟨_, huser⟩ := hcs.answered ⟨.userByID doc.user, .ok (some user)⟩ (by simp)
  obtain ⟨_, hserver⟩ := hcs.answered ⟨.serverByID doc.server, .ok (some found)⟩ (by simp)
  have hfirst := hcs.first ⟨.joinTokenByToken token, .ok (some doc)⟩ rfl
  simp only [Store.perform, Except.ok.injEq] at hfirst
  refine ⟨doc, List.mem_of_find?_eq_some hfirst.symm, ?_, (serverByID_answer hserver).symm,
    user.name, by rw [userByID_answer huser]⟩
  simpa using List.find?_some hfirst.symm

/-- After any calls, one at a time, and any changes of the database, a token that
is consumed was issued to the user it is consumed for, and for the server,
exactly if it is not the empty string. -/
theorem consumed_issued_iff {st₀ st : Store} {hist : History} {as : List SerialAction}
    (h : exec serialStep ({ st₀ with joinTokens := [] }, []) as = some (st, hist))
    {token server : String} {r : Response}
    (hr : ((consumeJoinToken token server).eval Store.perform st).2 = .ok r) :
    ∃ userID name, r = .player userID name ∧
      (Issued hist token userID server ↔ token ≠ "") := by
  have hgen : Genuine (st, hist) := exec_rule Genuine (fun hs h => hs.step h) (.init st₀) h
  obtain ⟨doc, hdoc, rfl, rfl, name, rfl⟩ := consumed_document hr
  refine ⟨doc.user, name, rfl, hgen.replies _ _ _, fun hne => ?_⟩
  exact (hgen.tokens doc hdoc).resolve_left hne

def sampleHost : UserModel := { id := "h", name := "Host" }

def sampleUser : UserModel := { id := "u", name := "User" }

def sampleServerModel : ServerModel where
  id := "s"
  name := "Server"
  password := none
  hostID := "h"
  playerCount := 0
  maxPlayerCount := 40
  official := false
  lastUpdated := 0
  proxyToken := "proxy"

def sampleStore : Store := { users := [sampleHost, sampleUser], servers := [sampleServerModel] }

def sampleGenerated : Generated := { id := "d", signed := some ⟨"jwt", by decide⟩, now := 0 }

def sampleCreate : Request := .create sampleUser { server := "s", password := "" } sampleGenerated

theorem consumed_issued_sample :
    ∃ st hist, exec serialStep ({ sampleStore with joinTokens := [] }, []) [.request sampleCreate]
        = some (st, hist) ∧
      ((consumeJoinToken "jwt" "s").eval Store.perform st).2 = .ok (.player "u" "User") ∧
      Issued hist "jwt" "u" "s" := by
  have h : exec serialStep ({ sampleStore with joinTokens := [] }, []) [.request sampleCreate]
      = some ({ sampleStore with joinTokens :=
          [{ id := "d", token := "jwt", user := "u", server := "s", created := 0 }] },
        [(sampleCreate, .ok (.joinToken "jwt"))]) := by decide
  have hr : ((consumeJoinToken "jwt" "s").eval Store.perform { sampleStore with joinTokens :=
      [{ id := "d", token := "jwt", user := "u", server := "s", created := 0 }] }).2
      = .ok (.player "u" "User") := by decide
  refine ⟨_, _, h, hr, ?_⟩
  obtain ⟨userID, name, heq, hiff⟩ := consumed_issued_iff h hr
  cases heq
  exact hiff.mpr (by decide)

def sampleRegister : Request :=
  .register sampleHost
    { name := "Server", password := none, maxPlayerCount := 40, hasMeta := false, invalid := none }
    sampleGenerated

/-- The empty string is consumed for the host of a server that has registered. -/
theorem empty_consumed :
    ∃ st hist, exec serialStep ({ users := [sampleHost] }, []) [.request sampleRegister]
        = some (st, hist) ∧
      ((consumeJoinToken "" "d").eval Store.perform st).2 = .ok (.player "h" "Host") ∧
      ¬ Issued hist "" "h" "d" := by
  have h : exec serialStep ({ users := [sampleHost] }, []) [.request sampleRegister]
      = some ({ users := [sampleHost]
                servers := [{ sampleServerModel with id := "d", proxyToken := "jwt" }]
                joinTokens := [{ id := "jwt", token := "", user := "h", server := "d",
                                 created := 0 }] },
        [(sampleRegister, .ok (.server "d" "jwt"))]) := by decide
  refine ⟨_, _, h, by decide, ?_⟩
  rintro ⟨user, req, gen, hmem, -⟩
  rw [List.mem_singleton] at hmem
  cases hmem

/-! ## A refused call for a token -/

/-- When the handler fails, the join tokens are those of before. -/
def CleanFailure (p : Handler) : Prop :=
  ∀ st failure, (p.eval Store.perform st).2 = .error failure →
    (p.eval Store.perform st).1.joinTokens = st.joinTokens

theorem issueJoinToken_clean (user : UserModel) (server : ServerModel) (gen : Generated) :
    CleanFailure (issueJoinToken user server gen) := by
  intro st failure h
  unfold issueJoinToken at h ⊢
  split
  · rfl
  · next token hsigned =>
      rw [hsigned] at h
      by_cases hdup : st.joinTokens.any (·.id == gen.id)
      · simp [eval_query, Store.perform, hdup]
      · simp [eval_query, Store.perform, hdup] at h

theorem admitToServer_clean (user : UserModel) (req : JoinTokenRequest) (server : ServerModel)
    (gen : Generated) : CleanFailure (admitToServer user req server gen) := by
  intro st failure h
  simp only [admitToServer, eval_query, Store.perform] at h ⊢
  split
  · rfl
  · next host hhost =>
      rw [hhost] at h
      simp only at h ⊢
      split
      · rfl
      · next hfull =>
          rw [if_neg hfull] at h
          split
          · rfl
          · next hpass =>
              rw [if_neg hpass] at h
              exact issueJoinToken_clean user server gen st failure h

/-- The loop that deletes, in front of a handler that leaves nothing behind when it
fails: what has been deleted is gone. -/
theorem eval_deleteExisting {rest : Handler} (hrest : CleanFailure rest)
    (tokens : List JoinTokenModel) {st : Store} {failure : Failure}
    (h : ((deleteExisting rest tokens).eval Store.perform st).2 = .error failure) :
    let left := ((deleteExisting rest tokens).eval Store.perform st).1.joinTokens
    left.length ≤ st.joinTokens.length ∧ (tokens = [] → left = st.joinTokens) ∧
      ∀ token ∈ tokens.head?, token ∈ st.joinTokens → left.length < st.joinTokens.length := by
  induction tokens generalizing st with
  | nil =>
      have := hrest st failure h
      exact ⟨Nat.le_of_eq (congrArg List.length this), fun _ => this, by simp⟩
  | cons token tokens ih =>
      by_cases hthere : st.joinTokens.any (·.id == token.id)
      · have hperform : st.perform (.deleteJoinToken token.id) =
            ({ st with joinTokens := st.joinTokens.eraseP (·.id == token.id) }, .ok ()) :=
          if_pos hthere
        simp only [deleteExisting, eval_query, hperform] at h ⊢
        have hle := (ih h).1
        have hlen : (st.joinTokens.eraseP (·.id == token.id)).length + 1 = st.joinTokens.length := by
          obtain ⟨doc, hdoc, hid⟩ := List.any_eq_true.mp hthere
          exact List.length_eraseP_add_one hdoc hid
        simp only at hle
        exact ⟨by omega, by simp, fun _ _ _ => by omega⟩
      · have hperform : st.perform (.deleteJoinToken token.id) = (st, .error .noDocuments) :=
          if_neg hthere
        simp only [deleteExisting, eval_query, hperform]
        refine ⟨Nat.le_refl _, by simp, ?_⟩
        intro doc hdoc hmem
        simp only [List.head?_cons, Option.mem_def, Option.some.injEq] at hdoc
        subst hdoc
        exact absurd (List.any_eq_true.mpr ⟨token, hmem, by simp⟩) hthere

/-- The first of the user's tokens is gone, if there is one. -/
theorem deleteExisting_unchanged_iff {rest : Handler} (hrest : CleanFailure rest) {st : Store}
    {user : String} {failure : Failure}
    (h : ((deleteExisting rest (st.joinTokens.filter (·.user == user))).eval
      Store.perform st).2 = .error failure) :
    ((deleteExisting rest (st.joinTokens.filter (·.user == user))).eval
        Store.perform st).1.joinTokens = st.joinTokens ↔
      ∀ doc ∈ st.joinTokens, doc.user ≠ user := by
  obtain ⟨-, hnil, hhead⟩ := eval_deleteExisting hrest _ h
  constructor
  · intro heq doc hdoc hu
    have hmem : doc ∈ st.joinTokens.filter (·.user == user) :=
      List.mem_filter.mpr ⟨hdoc, by simpa using hu⟩
    cases hf : st.joinTokens.filter (·.user == user) with
    | nil =>
        rw [hf] at hmem
        cases hmem
    | cons token tokens =>
        have hfirst : token ∈ st.joinTokens := by
          refine List.mem_of_mem_filter (?_ : token ∈ st.joinTokens.filter (·.user == user))
          rw [hf]
          exact List.mem_cons_self
        have hlt := hhead token (by rw [hf]; rfl) hfirst
        rw [heq] at hlt
        exact Nat.lt_irrefl _ hlt
  · intro hnone
    refine hnil (List.filter_eq_nil_iff.mpr fun doc hdoc => ?_)
    simpa using hnone doc hdoc

/-- The server of the request is not there, or its host has banned the user. -/
def TurnedAway (st : Store) (user : UserModel) (req : JoinTokenRequest) : Prop :=
  ∀ server, st.servers.find? (·.id == req.server) = some server →
    ∃ p ∈ st.punishments, p.isBan (some server.hostID) user.id st.now = true

/-- A refused call leaves the join tokens as they were exactly if the user has
none, or has been turned away before they are looked at. -/
theorem refused_unchanged_iff {st : Store} {user : UserModel} {req : JoinTokenRequest}
    {gen : Generated} {failure : Failure}
    (h : ((createJoinToken user req gen).eval Store.perform st).2 = .error failure) :
    ((createJoinToken user req gen).eval Store.perform st).1.joinTokens = st.joinTokens ↔
      (∀ doc ∈ st.joinTokens, doc.user ≠ user.id) ∨ TurnedAway st user req := by
  simp only [createJoinToken, eval_query, Store.perform] at h ⊢
  cases hserver : st.servers.find? (·.id == req.server) with
  | none =>
      refine ⟨fun _ => .inr ?_, fun _ => rfl⟩
      intro server hs
      rw [hserver] at hs
      cases hs
  | some server =>
      simp only [hserver, eval_query, Store.perform] at h ⊢
      cases hban : st.punishments.find? (·.isBan (some server.hostID) user.id st.now) with
      | some ban =>
          refine ⟨fun _ => .inr ?_, fun _ => ?_⟩
          · intro server' hs
            rw [hserver] at hs
            cases hs
            exact ⟨ban, List.mem_of_find?_eq_some hban,
              @List.find?_some PunishmentModel (·.isBan (some server.hostID) user.id st.now) _ _ hban⟩
          · simp only [refuseBanned]
            split <;> rfl
      | none =>
          simp only [hban, eval_query, Store.perform] at h ⊢
          have haway : ¬ TurnedAway st user req := by
            intro haway
            obtain ⟨ban, hmem, hisBan⟩ := haway server hserver
            exact List.find?_eq_none.mp hban ban hmem hisBan
          rw [or_iff_left haway]
          exact deleteExisting_unchanged_iff (admitToServer_clean user req server gen) h

/-- The user has a token for a server of another host. The one of these servers is full, and the
host of the other one has banned the user. -/
def refusingStore : Store :=
  { sampleStore with
    servers := [{ sampleServerModel with playerCount := 40 },
      { sampleServerModel with id := "t", hostID := "b" }]
    joinTokens := [{ id := "d", token := "jwt", user := "u", server := "v", created := 0 }]
    punishments := [{ id := "p", type := .ban, issuer := some "b", user := some "u"
                      reason := some "Cheating", expiresAt := none, overturnedBy := none }] }

/-- The banned user asks for a token, and another one, who has none, finds the server full: the
token of the first stays. -/
theorem refused_unchanged_sample :
    ((createJoinToken sampleUser { server := "t", password := "" } sampleGenerated).eval
        Store.perform refusingStore).1.joinTokens = refusingStore.joinTokens ∧
      ((createJoinToken { id := "w", name := "Other" } { server := "s", password := "" }
        sampleGenerated).eval Store.perform refusingStore).1.joinTokens = refusingStore.joinTokens :=
  ⟨(@refused_unchanged_iff _ _ _ _
      (.status .permissionDenied "You are banned from this server: Cheating")
      (by decide)).mpr (.inr (by unfold TurnedAway; decide)),
    (@refused_unchanged_iff _ _ _ _ (.status .resourceExhausted "Server is full")
      (by decide)).mpr (.inl (by decide))⟩

/-- The user has a token for one server and asks for one for another, which is full:
the call is refused and the token is gone. -/
theorem refused_deletes :
    let st : Store := { sampleStore with
      servers := [sampleServerModel,
        { sampleServerModel with id := "t", playerCount := 40 }]
      joinTokens := [{ id := "d", token := "jwt", user := "u", server := "s", created := 0 }] }
    let result := (createJoinToken sampleUser { server := "t", password := "" }
      sampleGenerated).eval Store.perform st
    result.2 = .error (.status .resourceExhausted "Server is full") ∧ result.1.joinTokens = [] := by
  decide

end Kyber.Api
