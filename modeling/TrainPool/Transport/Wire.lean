import TrainPool.Library.Frames
import TrainPool.Memory.Block
import TrainPool.Transport.Handshake

namespace TrainPool

/-! Frames of JSON over TCP, and the requests for chunks among daemons. -/

namespace Wire

structure Challenge where
  nonce : Uuid
  deriving DecidableEq, Repr

structure Authentication where
  clusterName : String
  nonce : Uuid
  mac : Option String
  deriving DecidableEq, Repr

structure Authenticated where
  mac : Option String
  deriving DecidableEq, Repr

/-- `WriteChunk` and `ReadChunk`, with `direct` set. -/
inductive DataRequest where
  | writeChunk (handle : MemoryBlockHandle) (chunk : Chunk)
  | readChunk (handle : MemoryBlockHandle) (transferId : Uuid)
      (offset length : Nat)
  deriving DecidableEq, Repr

/-- `ν` is the type of JSON values. -/
structure Response (ν : Type) where
  ok : Bool
  data : ν
  error : Option String
  deriving DecidableEq, Repr

namespace Response

variable {ν : Type}

/-- `Response::data` -/
def answer (data : ν) : Response ν := ⟨true, data, none⟩

def check (response : Response ν) : Result Unit :=
  ensure response.ok (response.error.getD "protocol failure")

/-- `into_data`, to a JSON value. -/
def intoData (response : Response ν) : Result ν := do
  ensure response.ok (response.error.getD "protocol failure")
  pure response.data

end Response

/-- The data of the answer to a `ReadChunk`. -/
structure ReadMetadata where
  transferId : Uuid
  objectId : Uuid
  offset : Nat
  length : Nat
  totalSize : Nat
  checksum : String
  deriving DecidableEq, Repr

/-- How a type of messages is read from JSON and written to it. -/
structure Form (α ν : Type) where
  toValue : α → ν
  fromValue : ν → Except String α

/-- The third-party code: JSON, HMAC, hexadecimal text and BLAKE3. -/
structure Crates (ν : Type) where
  toVec : Nat → ν → List UInt8
  fromSlice : List UInt8 → Except String (Nat × ν)
  null : ν
  challenge : Form Challenge ν
  authentication : Form Authentication ν
  authenticated : Form Authenticated ν
  request : Form DataRequest ν
  response : Form (Response ν) ν
  metadata : ReadMetadata → ν
  checksum : ν → Option String
  hmac : String → String → List UInt8
  unhex : String → Except String (List UInt8)
  blake3 : List UInt8 → Digest

def transcriptOf (role : String) (server client : Uuid) (cluster : String) :
    String :=
  transcript role (Nonce.display (.ofNat 128 server))
    (Nonce.display (.ofNat 128 client)) cluster

namespace Crates

def version : Nat := 1

def maxFrame : Nat := 8 * 1024 * 1024

variable {α ν : Type}

/-- The `?` on a result of the third-party code. -/
def lift : Except String α → Result α
  | .ok value => .ok value
  | .error message => .error (.error message)

variable (crates : Crates ν)

/-- `Response::error` -/
def refusal (message : String) : Response ν :=
  ⟨false, crates.null, some message⟩

def writeFrame (form : Form α ν) (message : α) : Result (List UInt8) := do
  let bytes := crates.toVec version (form.toValue message)
  ensure (bytes.length ≤ maxFrame) "control frame exceeds limit"
  pure (Frames.frame bytes)

def decode (form : Form α ν) (bytes : List UInt8) : Result α := do
  let wire ← lift (crates.fromSlice bytes)
  ensure (wire.1 = version)
    s!"TRAINPOOL_PROTOCOL_VERSION: expected {version}, received {wire.1}"
  lift (form.fromValue wire.2)

/-- The message at the front of a stream, and what follows it; `none` while it
has not all come. -/
def readFrame (form : Form α ν) (stream : List UInt8) :
    Option (Result α × List UInt8) :=
  match Frames.front maxFrame stream with
  | .more => none
  | .oversized => some
      (.error (.error "control frame exceeds limit"), stream.drop 4)
  | .whole body rest => some (crates.decode form body, rest)

def signature (secret : Option String) (bytes : String) : Option String :=
  secret.map fun key => Bytes.toHex (crates.hmac key bytes)

def verify (secret : Option String) (bytes : String)
    (supplied : Option String) : Result Unit :=
  match secret, supplied with
  | none, none => .ok ()
  | some key, some tag => do
      let decoded ← lift (crates.unhex tag)
      ensure (decoded = crates.hmac key bytes) "TRAINPOOL_AUTH_FAILED"
  | _, _ => .error (.error "TRAINPOOL_AUTH_FAILED: cluster secret mismatch")

variable {crates}

def Reads (crates : Crates ν) (form : Form α ν) (message : α) : Prop :=
  crates.decode form (crates.toVec version (form.toValue message)) =
    .ok message

structure Lawful (crates : Crates ν) : Prop where
  challenge : ∀ message, crates.Reads crates.challenge message
  authentication : ∀ message, crates.Reads crates.authentication message
  authenticated : ∀ message, crates.Reads crates.authenticated message
  request : ∀ message, crates.Reads crates.request message
  done : crates.Reads crates.response (.answer crates.null)
  metadata : ∀ metadata,
    crates.Reads crates.response (.answer (crates.metadata metadata))
  refusal : ∀ message, crates.Reads crates.response (crates.refusal message)

theorem writeFrame_ok {form : Form α ν} {message : α} {bytes : List UInt8}
    (written : crates.writeFrame form message = .ok bytes) :
    (crates.toVec version (form.toValue message)).length ≤ maxFrame ∧
      bytes = Frames.frame (crates.toVec version (form.toValue message)) := by
  simp only [writeFrame, ensure_bind_ok, pure_ok] at written
  exact ⟨written.1, written.2.symm⟩

theorem writeFrame_fits {form : Form α ν} {message : α}
    (fits : (crates.toVec version (form.toValue message)).length ≤ maxFrame) :
    crates.writeFrame form message =
      .ok (Frames.frame (crates.toVec version (form.toValue message))) :=
  ensure_bind_ok.mpr ⟨fits, rfl⟩

theorem readFrame_nil (form : Form α ν) : crates.readFrame form [] = none :=
  rfl

section

variable {writer : Bool} {stream bytes tail rest : List UInt8} {message : α}
  {form : Form α ν}

theorem readFrame_carries {β : Type} {other : Form β ν} {result : Result β}
    (written : crates.writeFrame form message = .ok bytes)
    (carries : Frames.Carries writer stream (bytes ++ tail))
    (read : crates.readFrame other stream = some (result, rest)) :
    result =
        crates.decode other (crates.toVec version (form.toValue message)) ∧
      Frames.Carries writer rest tail := by
  obtain ⟨fits, rfl⟩ := writeFrame_ok written
  have small : maxFrame < 256 ^ 4 := by decide
  unfold readFrame at read
  cases found : Frames.front maxFrame stream with
  | more =>
      rw [found] at read
      cases read
  | oversized =>
      exact absurd found (carries.front_fits fits small)
  | whole body after =>
      rw [found] at read
      cases read
      obtain ⟨rfl, left⟩ := carries.front fits small found
      exact ⟨rfl, left⟩

theorem Reads.frame (reads : crates.Reads form message)
    {result : Result α} (written : crates.writeFrame form message = .ok bytes)
    (carries : Frames.Carries writer stream (bytes ++ tail))
    (read : crates.readFrame form stream = some (result, rest)) :
    result = .ok message ∧ Frames.Carries writer rest tail := by
  obtain ⟨rfl, left⟩ := readFrame_carries written carries read
  exact ⟨reads, left⟩

theorem Reads.front (reads : crates.Reads form message)
    (written : crates.writeFrame form message = .ok bytes) :
    crates.readFrame form (bytes ++ rest) = some (.ok message, rest) := by
  obtain ⟨fits, rfl⟩ := writeFrame_ok written
  unfold readFrame
  rw [Frames.front_frame fits (by decide)]
  exact congrArg (fun read => some (read, rest)) reads

end

end Crates

end Wire

end TrainPool
