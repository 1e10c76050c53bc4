import Kyber.Api.Upload

/-!
# Uploaded mods are stored whole

The goroutine of `UploadMod` closes the pipe by itself in three ways: with an error,
which makes the storage fail; at a message with `done`; and by the deferred `Close` when
the stream is over. Only the code for the first message writes the chunk before it closes
the pipe. So a mod is stored whole if its first message carries `done`; one that comes in
several messages is stored without the chunk of the last one, and one whose last message
never comes is stored as if it had.
-/

namespace Kyber.Api.Upload

/-! ## What is promised -/

/-- The requests up to and including the first that carries `done`. -/
def throughDone : List ModUploadRequest → Option (List ModUploadRequest)
  | [] => none
  | req :: rest => if req.done then some [req] else (throughDone rest).map (req :: ·)

/-- Whole or not at all. -/
structure Whole (stream : UploadStream) (u : Uploaded) : Prop where
  /-- a mod that is created is stored as it was sent, and is not too large -/
  stored : ∀ mod, u.mod = some mod → ∃ reqs, throughDone stream.requests = some reqs ∧
    u.object = some (mod.fileName, reqs.flatMap (·.chunk)) ∧
    (reqs.flatMap (·.chunk)).length ≤ fileSizeLimit
  /-- a stream without a message that carries `done` creates none -/
  unfinished : throughDone stream.requests = none → u.mod = none

/-! ## When it is kept -/

/-- The request at position `n`, behind `total` bytes, closes the pipe with an error: it is too
large, or its response cannot be sent. A first request without a chunk has no response. -/
def Refuses (stream : UploadStream) (n total : Nat) (req : ModUploadRequest) : Prop :=
  fileSizeLimit < total + req.chunk.length ∨
    (n ≠ 0 ∨ req.chunk ≠ []) ∧ (stream.sendError n).isSome

/-- One of the requests from position `n` on is refused. -/
def Refused (stream : UploadStream) : Nat → Nat → List ModUploadRequest → Prop
  | _, _, [] => False
  | n, total, req :: rest =>
      Refuses stream n total req ∨ Refused stream (n + 1) (total + req.chunk.length) rest

/-- The requests in front of the first that carries `done`. -/
def UploadStream.unfinished (stream : UploadStream) : List ModUploadRequest :=
  stream.requests.takeWhile (!·.done)

/-- The storage and the database take a mod of the user. -/
def Accepts (b : Backend) (user : Option UserModel) : Prop :=
  (∃ u, user = some u ∧ u.entitled .admin = true) ∧ b.getsObject = true ∧ b.putsObject = true ∧
    b.creates = true

/-- No mod can be created, or the first request is the last one, or one in front of the last
one is refused, or the last one is empty; without a last one, that the stream breaks off. -/
def KeepsWhole (b : Backend) (user : Option UserModel) (stream : UploadStream) : Prop :=
  ¬ Accepts b user ∨ stream.unfinished = [] ∨ Refused stream 0 0 stream.unfinished ∨
    match stream.requests.find? (·.done) with
    | some req => req.chunk = []
    | none => stream.ending ≠ .eof

/-! ## The pipe -/

namespace Pipe

variable {p : Pipe}

@[simp] theorem written_closeAs (e : PipeEnd) : (p.closeAs e).written = p.written := rfl

@[simp] theorem written_close : p.close.written = p.written := rfl

@[simp] theorem written_closeWithError (e : PipeError) :
    (p.closeWithError e).written = p.written := rfl

theorem closed_closeAs (e : PipeEnd) : (p.closeAs e).closed = some (p.closed.getD e) := rfl

theorem closed_close_of_open (h : p.closed = none) : p.close.closed = some .eof := by
  simp [close, closed_closeAs, h]

/-- What is closed stays closed as it is. -/
theorem closeAs_of_closed {e : PipeEnd} (h : p.closed = some e) (e' : PipeEnd) :
    p.closeAs e' = p := by
  cases p with
  | mk written closed =>
      cases h
      rfl

theorem closed_failed (h : p.closed = none) (e : PipeError) :
    (p.closeWithError e).close.closed = some (.error e) := by
  simp [close, closeWithError, closed_closeAs, h]

theorem write_of_open (h : p.closed = none) (chunk : List UInt8) :
    p.write chunk = .ok { p with written := p.written ++ chunk } := by
  simp only [write, h]

end Pipe

/-! ## The loop -/

section

variable {stream : UploadStream} {p : Pipe} {req : ModUploadRequest}

/-- A later request with `done` ends the upload as it is, whatever it carries. -/
theorem receive_done (n total : Nat) (hopen : p.closed = none) (hdone : req.done = true)
    (rest : List ModUploadRequest) : receive stream n total p (req :: rest) = p.close := by
  have hclosed := Pipe.closed_close_of_open hopen
  have hwrite : p.close.write req.chunk = .error .closedPipe := by
    simp only [Pipe.write, hclosed]
  simp only [receive, hdone, if_true, hwrite]
  split
  · exact Pipe.closeAs_of_closed hclosed _
  · exact Pipe.closeAs_of_closed hclosed _

/-- A later request that is refused closes the pipe with an error. -/
theorem receive_refused {n total : Nat} (hopen : p.closed = none) (hdone : req.done = false)
    (hrefused : Refuses stream n total req) (rest : List ModUploadRequest) :
    ∃ e, (receive stream n total p (req :: rest)).close.closed = some (.error e) := by
  by_cases hsize : fileSizeLimit < total + req.chunk.length
  · refine ⟨sizeError, ?_⟩
    simp only [receive, hdone, Bool.or_eq_true, decide_eq_true_eq, gt_iff_lt, hsize, or_true,
      if_true]
    exact Pipe.closed_failed hopen _
  · have hchunk : ¬ fileSizeLimit < req.chunk.length := by omega
    obtain ⟨-, hsend⟩ := hrefused.resolve_left hsize
    obtain ⟨message, hsend⟩ := Option.isSome_iff_exists.mp hsend
    refine ⟨.wrapped "send response" (.stream message), ?_⟩
    simp only [receive, hdone, Bool.or_eq_true, decide_eq_true_eq, gt_iff_lt, hsize, hchunk,
      or_self, if_false, Bool.false_eq_true, Pipe.write_of_open hopen, hsend]
    exact Pipe.closed_failed hopen _

/-- A later request without `done` that is not refused is written. -/
theorem receive_accepted {n total : Nat} (hn : n ≠ 0) (hopen : p.closed = none)
    (hdone : req.done = false) (haccepted : ¬ Refuses stream n total req)
    (rest : List ModUploadRequest) :
    receive stream n total p (req :: rest) =
      receive stream (n + 1) (total + req.chunk.length)
        { p with written := p.written ++ req.chunk } rest := by
  have hsize : ¬ fileSizeLimit < total + req.chunk.length := fun h => haccepted (.inl h)
  have hchunk : ¬ fileSizeLimit < req.chunk.length := by omega
  have hsend : stream.sendError n = none := by
    cases h : stream.sendError n with
    | none => rfl
    | some message => exact absurd (Or.inr ⟨.inl hn, by rw [h]; rfl⟩) haccepted
  simp only [receive, hdone, Bool.or_eq_true, decide_eq_true_eq, gt_iff_lt, hsize, hchunk,
    or_self, if_false, Bool.false_eq_true, Pipe.write_of_open hopen, hsend]

/-- The loop ends without an error exactly if no request is refused, and there is a last one or
the stream ends regularly; then all has been written but the chunk of the last one. -/
theorem receive_closed {n total : Nat} (hn : n ≠ 0) (hopen : p.closed = none)
    (reqs : List ModUploadRequest) :
    ((receive stream n total p reqs).close.closed = some .eof ↔
      ¬ Refused stream n total (reqs.takeWhile (!·.done)) ∧
        (reqs.find? (·.done) = none → stream.ending = .eof)) ∧
    ((receive stream n total p reqs).close.closed = some .eof →
      (receive stream n total p reqs).written =
        p.written ++ (reqs.takeWhile (!·.done)).flatMap (·.chunk)) := by
  induction reqs generalizing n total p with
  | nil =>
      cases hending : stream.ending with
      | eof => simp [receive, hending, Refused, Pipe.closed_close_of_open hopen]
      | error message => simp [receive, hending, Refused, Pipe.closed_failed hopen]
  | cons req rest ih =>
      cases hdone : req.done with
      | true =>
          rw [receive_done n total hopen hdone]
          have hclosed := Pipe.closed_close_of_open hopen
          have hagain : p.close.close = p.close := Pipe.closeAs_of_closed hclosed _
          simp [hdone, hagain, hclosed, Refused]
      | false =>
          simp only [List.takeWhile_cons, List.find?_cons, hdone, Bool.not_false, if_true, Refused,
            List.flatMap_cons, not_or]
          by_cases hrefused : Refuses stream n total req
          · obtain ⟨e, herror⟩ := receive_refused hopen hdone hrefused rest
            rw [herror]
            simp [hrefused]
          · rw [receive_accepted hn hopen hdone hrefused rest, ← List.append_assoc]
            obtain ⟨hclosed, hwritten⟩ := @ih { p with written := p.written ++ req.chunk } (n + 1)
              (total + req.chunk.length) (Nat.succ_ne_zero n) hopen
            refine ⟨hclosed.trans ?_, hwritten⟩
            simp only [hrefused, not_false_eq_true, true_and]

/-- What is not refused is not too large. -/
theorem length_le_of_not_refused {n total : Nat} (htotal : total ≤ fileSizeLimit)
    (reqs : List ModUploadRequest) (h : ¬ Refused stream n total reqs) :
    total + (reqs.flatMap (·.chunk)).length ≤ fileSizeLimit := by
  induction reqs generalizing n total with
  | nil => simpa using htotal
  | cons req rest ih =>
      simp only [Refused, Refuses, not_or, Nat.not_lt] at h
      have hrest := ih h.1.1 h.2
      rw [List.flatMap_cons, List.length_append]
      omega

end

/-! ## The goroutine -/

section

variable {stream : UploadStream} {firstReq : ModUploadRequest}

theorem goroutine_refused (h : Refuses stream 0 0 firstReq) (rest : List ModUploadRequest) :
    ∃ e, (goroutine stream firstReq rest).closed = some (.error e) := by
  have hpos : 0 < firstReq.chunk.length := by
    rcases h with h | ⟨h, -⟩
    · omega
    · exact List.length_pos_iff.mpr (h.resolve_left (· rfl))
  by_cases hsize : fileSizeLimit < firstReq.chunk.length
  · refine ⟨sizeError, ?_⟩
    simp only [goroutine, writeChunks, hpos, if_true, gt_iff_lt, hsize]
    exact Pipe.closed_failed rfl _
  · have hsend := (h.resolve_left (by omega)).2
    obtain ⟨message, hsend⟩ := Option.isSome_iff_exists.mp hsend
    refine ⟨.wrapped "send initial response" (.stream message), ?_⟩
    simp only [goroutine, writeChunks, hpos, if_true, gt_iff_lt, hsize, if_false,
      Pipe.write_of_open (p := {}) rfl, hsend]
    exact Pipe.closed_failed rfl _

theorem goroutine_accepted (h : ¬ Refuses stream 0 0 firstReq) (rest : List ModUploadRequest) :
    goroutine stream firstReq rest =
      (afterFirst stream firstReq firstReq.chunk.length { written := firstReq.chunk } rest).close := by
  by_cases hpos : 0 < firstReq.chunk.length
  · have hsize : ¬ fileSizeLimit < firstReq.chunk.length := fun hsize => h (.inl (by omega))
    have hsend : stream.sendError 0 = none := by
      cases hs : stream.sendError 0 with
      | none => rfl
      | some message =>
          exact absurd (Or.inr ⟨.inr (List.length_pos_iff.mp hpos), by rw [hs]; rfl⟩) h
    simp only [goroutine, writeChunks, hpos, if_true, gt_iff_lt, hsize, if_false,
      Pipe.write_of_open (p := {}) rfl, hsend, List.nil_append]
  · have hempty : firstReq.chunk = [] := List.length_eq_zero_iff.mp (by omega)
    simp [goroutine, writeChunks, hempty]

/-- The storage reads to a regular end exactly if no request in front of the last one is
refused, nor the first one, and there is a last one or the stream ends regularly. -/
theorem goroutine_closed (rest : List ModUploadRequest) :
    (goroutine stream firstReq rest).closed = some .eof ↔
      ¬ Refuses stream 0 0 firstReq ∧ (firstReq.done = false →
        ¬ Refused stream 0 0 (firstReq :: rest.takeWhile (!·.done)) ∧
          (rest.find? (·.done) = none → stream.ending = .eof)) := by
  by_cases hrefused : Refuses stream 0 0 firstReq
  · obtain ⟨e, herror⟩ := goroutine_refused hrefused rest
    rw [herror]
    simp [hrefused]
  · rw [goroutine_accepted hrefused]
    cases hdone : firstReq.done with
    | true =>
        have hclosed : (Pipe.close { written := firstReq.chunk }).close.closed = some .eof := rfl
        simp [afterFirst, hdone, hclosed, hrefused]
    | false =>
        simp only [afterFirst, hdone, Bool.false_eq_true, if_false, hrefused, not_false_eq_true,
          true_and, forall_const, Refused, false_or]
        refine (receive_closed Nat.one_ne_zero rfl rest).1.trans ?_
        simp only [Nat.zero_add]

/-- What the storage reads, unless it fails. -/
theorem goroutine_written {rest : List ModUploadRequest}
    (hclosed : (goroutine stream firstReq rest).closed = some .eof) :
    (goroutine stream firstReq rest).written = firstReq.chunk ++
      if firstReq.done then [] else (rest.takeWhile (!·.done)).flatMap (·.chunk) := by
  have hrefused := ((goroutine_closed rest).mp hclosed).1
  rw [goroutine_accepted hrefused] at hclosed ⊢
  cases hdone : firstReq.done with
  | true => simp [afterFirst, hdone]
  | false =>
      simp only [afterFirst, hdone, Bool.false_eq_true, if_false] at hclosed ⊢
      exact (receive_closed Nat.one_ne_zero rfl rest).2 hclosed

end

/-! ## The call -/

section

variable {b : Backend} {user : Option UserModel} {stream : UploadStream}

@[simp] theorem mod_announce (u : Uploaded) (mod : HostedMod) : (announce b u mod).mod = u.mod := by
  unfold announce
  split
  · rfl
  · split <;> rfl

@[simp] theorem object_announce (u : Uploaded) (mod : HostedMod) :
    (announce b u mod).object = u.object := by
  unfold announce
  split
  · rfl
  · split <;> rfl

/-- A mod is created exactly if all goes well and the pipe is closed without an error. -/
theorem isSome_mod_iff {firstReq : ModUploadRequest} {rest : List ModUploadRequest}
    (hrequests : stream.requests = firstReq :: rest) :
    (uploadMod b user stream).mod.isSome = true ↔
      Accepts b user ∧ (goroutine stream firstReq rest).closed = some .eof := by
  cases user with
  | none => simp [uploadMod, Accepts]
  | some u =>
      simp only [uploadMod, hrequests, Accepts, putObject, Option.some.injEq, exists_eq_left']
      cases u.entitled .admin <;> cases b.getsObject <;> cases b.putsObject <;>
        cases b.creates <;>
        by_cases hclosed : (goroutine stream firstReq rest).closed = some .eof <;>
        simp [hclosed]

theorem mod_eq_none_of_empty (hrequests : stream.requests = []) :
    (uploadMod b user stream).mod = none := by
  cases user with
  | none => rfl
  | some u =>
      simp only [uploadMod, hrequests]
      cases stream.ending <;> rfl

/-- What is stored for a mod that is created. -/
theorem object_uploadMod {firstReq : ModUploadRequest} {rest : List ModUploadRequest}
    (hrequests : stream.requests = firstReq :: rest) {mod : HostedMod}
    (hmod : (uploadMod b user stream).mod = some mod) :
    (uploadMod b user stream).object =
      some (mod.fileName, (goroutine stream firstReq rest).written) := by
  obtain ⟨⟨⟨u, rfl, hadmin⟩, hget, hput, hcreate⟩, hclosed⟩ :=
    (isSome_mod_iff hrequests).mp (by rw [hmod]; rfl)
  simp only [uploadMod, hrequests, hadmin, hget, hcreate, putObject, hput, hclosed, and_self,
    Bool.not_true, Bool.false_eq_true, if_false, if_true, mod_announce, Option.some.injEq,
    object_announce] at hmod ⊢
  rw [← hmod]

end

/-! ## The condition -/

theorem throughDone_eq (reqs : List ModUploadRequest) :
    throughDone reqs =
      (reqs.find? (·.done)).map fun req => reqs.takeWhile (!·.done) ++ [req] := by
  induction reqs with
  | nil => rfl
  | cons req rest ih =>
      cases hdone : req.done with
      | true => simp [throughDone, hdone]
      | false => simp [throughDone, hdone, ih, Function.comp_def]

/-- Nothing is promised where no mod is created. -/
theorem whole_of_none {stream : UploadStream} {u : Uploaded} (h : u.mod = none) :
    Whole stream u where
  stored mod hmod := by
    rw [h] at hmod
    cases hmod
  unfinished _ := h

section

variable {b : Backend} {user : Option UserModel} {stream : UploadStream}
  {firstReq : ModUploadRequest} {rest : List ModUploadRequest}

/-- The condition, seen from the end: nothing is stored, or the first request is the last one,
or the last one is empty. -/
theorem keepsWhole_iff (hrequests : stream.requests = firstReq :: rest) :
    KeepsWhole b user stream ↔
      ¬ (Accepts b user ∧ (goroutine stream firstReq rest).closed = some .eof) ∨
        firstReq.done = true ∨ ∃ req, rest.find? (·.done) = some req ∧ req.chunk = [] := by
  unfold KeepsWhole UploadStream.unfinished
  rw [goroutine_closed, hrequests]
  by_cases haccepts : Accepts b user
  swap
  · simp [haccepts]
  cases hdone : firstReq.done with
  | true => simp [hdone]
  | false =>
      have hfirst : Refuses stream 0 0 firstReq →
          Refused stream 0 0 (firstReq :: rest.takeWhile (!·.done)) := Or.inl
      cases hfind : rest.find? (·.done) with
      | none =>
          simp only [haccepts, List.takeWhile_cons, List.find?_cons, hdone, hfind, Bool.not_false,
            if_true, true_and, forall_const, reduceCtorEq, false_and, exists_false, or_false,
            false_or, not_true_eq_false, List.cons_ne_nil, Bool.false_eq_true]
          tauto
      | some req =>
          simp only [haccepts, List.takeWhile_cons, List.find?_cons, hdone, hfind, Bool.not_false,
            if_true, true_and, forall_const, reduceCtorEq, false_or, not_true_eq_false,
            List.cons_ne_nil, Bool.false_eq_true, Option.some.injEq, exists_eq_left', false_imp_iff,
            and_true]
          tauto

/-- A mod that is created is whole if its first request is the last one, or the last one is
empty. -/
theorem whole_of_created (hrequests : stream.requests = firstReq :: rest)
    (hclosed : (goroutine stream firstReq rest).closed = some .eof)
    (h : firstReq.done = true ∨ ∃ req, rest.find? (·.done) = some req ∧ req.chunk = []) :
    Whole stream (uploadMod b user stream) := by
  have hwritten := goroutine_written hclosed
  obtain ⟨hfirst, hrest⟩ := (goroutine_closed rest).mp hclosed
  cases hdone : firstReq.done with
  | true =>
      have hthrough : throughDone stream.requests = some [firstReq] := by
        simp [hrequests, throughDone, hdone]
      refine ⟨fun mod hmod => ⟨_, hthrough, ?_, ?_⟩, fun hnone => ?_⟩
      · rw [object_uploadMod hrequests hmod, hwritten]
        simp [hdone]
      · have hsize : ¬ fileSizeLimit < 0 + firstReq.chunk.length := fun h => hfirst (.inl h)
        simpa using hsize
      · rw [hthrough] at hnone
        cases hnone
  | false =>
      obtain ⟨req, hfind, hempty⟩ := h.resolve_left (by simp [hdone])
      have hthrough : throughDone stream.requests =
          some (firstReq :: rest.takeWhile (!·.done) ++ [req]) := by
        simp [throughDone_eq, hrequests, hdone, hfind]
      have hsize := length_le_of_not_refused (Nat.zero_le _) _ (hrest hdone).1
      refine ⟨fun mod hmod => ⟨_, hthrough, ?_, ?_⟩, fun hnone => ?_⟩
      · rw [object_uploadMod hrequests hmod, hwritten]
        simp [hdone, hempty]
      · simpa [hempty] using hsize
      · rw [hthrough] at hnone
        cases hnone

/-- A mod that is created from several requests, the last of which is missing or not empty, is
not whole. -/
theorem last_of_whole (hrequests : stream.requests = firstReq :: rest)
    (haccepts : Accepts b user) (hclosed : (goroutine stream firstReq rest).closed = some .eof)
    (hwhole : Whole stream (uploadMod b user stream)) (hdone : firstReq.done = false) :
    ∃ req, rest.find? (·.done) = some req ∧ req.chunk = [] := by
  obtain ⟨mod, hmod⟩ :=
    Option.isSome_iff_exists.mp ((isSome_mod_iff hrequests).mpr ⟨haccepts, hclosed⟩)
  obtain ⟨reqs, hthrough, hobject, -⟩ := hwhole.stored mod hmod
  rw [throughDone_eq, hrequests, List.find?_cons_of_neg (by simp [hdone]), Option.map_eq_some_iff]
    at hthrough
  obtain ⟨req, hfind, rfl⟩ := hthrough
  refine ⟨req, hfind, ?_⟩
  rw [object_uploadMod hrequests hmod, goroutine_written hclosed] at hobject
  simpa [hdone] using hobject

end

/-- Uploaded mods are stored whole or not at all exactly if, for a mod that can be created, the
last request is the first one or empty, or one in front of it is refused, or the stream breaks
off without one. -/
theorem whole_iff (b : Backend) (user : Option UserModel) (stream : UploadStream) :
    Whole stream (uploadMod b user stream) ↔ KeepsWhole b user stream := by
  cases hrequests : stream.requests with
  | nil =>
      refine iff_of_true (whole_of_none (mod_eq_none_of_empty hrequests)) (.inr (.inl ?_))
      simp [UploadStream.unfinished, hrequests]
  | cons firstReq rest =>
      rw [keepsWhole_iff hrequests]
      by_cases hcreated : Accepts b user ∧ (goroutine stream firstReq rest).closed = some .eof
      · refine ⟨fun hwhole => .inr ?_, fun h => ?_⟩
        · cases hdone : firstReq.done with
          | true => exact .inl rfl
          | false => exact .inr (last_of_whole hrequests hcreated.1 hcreated.2 hwhole hdone)
        · exact whole_of_created hrequests hcreated.2 (h.resolve_left (· hcreated))
      · refine iff_of_true (whole_of_none ?_) (.inl hcreated)
        rw [← Option.not_isSome_iff_eq_none, isSome_mod_iff hrequests]
        exact hcreated

/-- An admin sends two chunks, the second with `done`. -/
def twoChunks : UploadStream where
  requests := [{ chunk := [1] }, { chunk := [2], done := true }]
  ending := .eof
  sendError _ := none

/-- The second chunk is lost. -/
theorem twoChunks_not_whole :
    ¬ Whole twoChunks (uploadMod
      { token := "token", shortToken := "id", created := 0, updated := 0,
        presignedUrl := some "url" }
      (some { id := "admin", name := "admin", entitlements := [.admin] }) twoChunks) := by
  intro hwhole
  obtain ⟨reqs, hthrough, hobject, -⟩ := hwhole.stored _ rfl
  cases hthrough
  exact absurd hobject (by decide)

end Kyber.Api.Upload
