import Kyber.Api.Rpc

/-!
# Uploading a mod (`launcher_client.go`)

`UploadMod` hands what the client sends to the object storage through a pipe. A
goroutine receives the messages and writes their chunks, while `PutObject` reads until
the pipe is closed. A write is over when all of it has been read, so of the two sides
only what has been written and how the pipe was closed matter. The storage keeps what it
reads, and fails when the reader fails; that it can fail on its own, like the database,
the queue and the sending of responses, is an argument.

Lengths are natural numbers: a chunk is compared with the limit by itself before the
total counts, so the 64-bit total does not overflow where it decides anything.
-/

namespace Kyber.Api.Upload

structure ModUploadRequest where
  chunk : List UInt8 := []
  done : Bool := false
  deriving DecidableEq, Repr

/-- How a stream ends: `io.EOF`, or another error of `Recv`. -/
inductive StreamEnd
  | eof
  | error (message : String)
  deriving DecidableEq, Repr

structure UploadStream where
  requests : List ModUploadRequest
  ending : StreamEnd
  /-- the error of `Send` for the response to the request at a position -/
  sendError : Nat → Option String

/-! ## The pipe (`io.Pipe`) -/

inductive PipeError
  /-- `io.ErrClosedPipe` -/
  | closedPipe
  | stream (message : String)
  | status (code : Code) (message : String)
  /-- `fmt.Errorf` with `%w` -/
  | wrapped (text : String) (cause : PipeError)
  deriving DecidableEq, Repr

/-- What the reader gets behind the last byte. -/
inductive PipeEnd
  | eof
  | error (e : PipeError)
  deriving DecidableEq, Repr

structure Pipe where
  written : List UInt8 := []
  closed : Option PipeEnd := none
  deriving DecidableEq, Repr

namespace Pipe

def write (p : Pipe) (chunk : List UInt8) : Except PipeError Pipe :=
  match p.closed with
  | some _ => .error .closedPipe
  | none => .ok { p with written := p.written ++ chunk }

/-- Only the first way in which a pipe is closed counts. -/
def closeAs (p : Pipe) (e : PipeEnd) : Pipe := { p with closed := some (p.closed.getD e) }

/-- `Close`, which always succeeds. -/
def close (p : Pipe) : Pipe := p.closeAs .eof

def closeWithError (p : Pipe) (e : PipeError) : Pipe := p.closeAs (.error e)

end Pipe

/-! ## The goroutine -/

def fileSizeLimit : Nat := 5 * 1024 * 1024 * 1024

def sizeError : PipeError := .status .resourceExhausted "file size exceeds limit of 5GB"

/-- The loop of the goroutine, at the request at position `n`. -/
def receive (stream : UploadStream) (n totalSize : Nat) (p : Pipe) : List ModUploadRequest → Pipe
  | [] =>
      match stream.ending with
      | .eof => p
      | .error message => p.closeWithError (.wrapped "receive from stream" (.stream message))
  | req :: rest =>
      -- the pipe is closed before the chunk of the last message is written
      let p := if req.done then p.close else p
      let totalSize := totalSize + req.chunk.length
      if req.chunk.length > fileSizeLimit || totalSize > fileSizeLimit then
        p.closeWithError sizeError
      else
        match p.write req.chunk with
        | .error e => p.closeWithError (.wrapped "pipe write" e)
        | .ok p =>
            match stream.sendError n with
            | some message => p.closeWithError (.wrapped "send response" (.stream message))
            | none => receive stream (n + 1) totalSize p rest

/-- The goroutine behind the check of the first message's chunk. -/
def afterFirst (stream : UploadStream) (firstReq : ModUploadRequest) (totalSize : Nat) (p : Pipe)
    (rest : List ModUploadRequest) : Pipe :=
  if firstReq.done then p.close else receive stream 1 totalSize p rest

def writeChunks (stream : UploadStream) (firstReq : ModUploadRequest)
    (rest : List ModUploadRequest) : Pipe :=
  let chunk := firstReq.chunk
  if 0 < chunk.length then
    if chunk.length > fileSizeLimit then ({} : Pipe).closeWithError sizeError
    else
      match ({} : Pipe).write chunk with
      | .error e => ({} : Pipe).closeWithError (.wrapped "pipe write" e)
      | .ok p =>
          match stream.sendError 0 with
          | some message => p.closeWithError (.wrapped "send initial response" (.stream message))
          | none => afterFirst stream firstReq chunk.length p rest
  else afterFirst stream firstReq 0 {} rest

/-- The goroutine, with the deferred `Close`. -/
def goroutine (stream : UploadStream) (firstReq : ModUploadRequest)
    (rest : List ModUploadRequest) : Pipe :=
  (writeChunks stream firstReq rest).close

/-! ## `UploadMod` -/

structure HostedMod where
  id : String
  fileName : String
  uploaderID : String
  name : String
  version : String
  created : Instant
  updated : Instant
  deriving DecidableEq, Repr

structure IndexModByUrlPayload where
  id : String
  url : String
  deriving DecidableEq, Repr

/-- What the handler takes from elsewhere. -/
structure Backend where
  /-- `GenerateToken` and `GenerateShortToken` -/
  token : String
  shortToken : String
  created : Instant
  updated : Instant
  /-- whether `GetObject`, `PutObject` as far as the reader does not fail, and `Create`
  succeed -/
  getsObject : Bool := true
  putsObject : Bool := true
  creates : Bool := true
  presignedUrl : Option String
  hasQueue : Bool := true
  /-- whether the message for the queue can be made -/
  encodes : Bool := true
  /-- whether the last response is sent -/
  responds : Bool := true
  deriving DecidableEq, Repr

/-- What a call has left behind, and its result. -/
structure Uploaded where
  /-- the object in the bucket `mod-storage` -/
  object : Option (String × List UInt8) := none
  mod : Option HostedMod := none
  published : Option IndexModByUrlPayload := none
  result : Except Failure Unit

def fail (code : Code) (message : String) : Except Failure Unit := .error (.status code message)

/-- `PutObject` -/
def putObject (b : Backend) (p : Pipe) : Option (List UInt8) :=
  if b.putsObject ∧ p.closed = some .eof then some p.written else none

/-- `UploadMod` when the mod is created: the mod is announced to the index. -/
def announce (b : Backend) (u : Uploaded) (mod : HostedMod) : Uploaded :=
  match b.presignedUrl with
  | none => { u with result := fail .internal "Failed to get presigned URL" }
  | some url =>
      if b.hasQueue ∧ ¬ b.encodes then
        { u with result := fail .internal "Failed to create task message" }
      else
        { u with
          published := if b.hasQueue then some { id := mod.id, url } else none
          result :=
            if b.responds then .ok () else fail .internal "Failed to send final response" }

/-- `UploadMod` with the user of the context. -/
def uploadMod (b : Backend) (user : Option UserModel) (stream : UploadStream) : Uploaded :=
  match user with
  | none => { result := .error .panic }
  | some user =>
      match stream.requests with
      | [] =>
          match stream.ending with
          | .eof => { result := fail .invalidArgument "no token provided" }
          | .error message =>
              { result := fail .internal ("failed to receive initial token: " ++ message) }
      | firstReq :: rest =>
          if !user.entitled .admin then { result := fail .permissionDenied "permission denied" }
          else if !b.getsObject then
            { result := fail .internal "Failed to check if file exists" }
          else
            let objectName := b.token ++ ".zip"
            match putObject b (goroutine stream firstReq rest) with
            | none => { result := fail .internal "Failed to upload file" }
            | some content =>
                let object := some (objectName, content)
                let mod : HostedMod :=
                  { id := b.shortToken, fileName := objectName, uploaderID := user.id, name := "",
                    version := "", created := b.created, updated := b.updated }
                if !b.creates then
                  { object, result := fail .internal "Failed to create mod entry" }
                else announce b { object, mod := some mod, result := .ok () } mod

end Kyber.Api.Upload
