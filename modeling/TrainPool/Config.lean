import TrainPool.Basic

namespace TrainPool

/-- The settings of a daemon that the modelled operations read. -/
structure Config where
  chunkBytes : Nat := 64 * 1024 * 1024
  udpPayloadBytes : Nat := 1200
  udpWindowPackets : Nat := 256
  udpInitialRtoMs : Nat := 50
  udpMaxRetries : Nat := 8
  udpMaxSessions : Nat := 128
  leaseSeconds : Nat := 300
  deriving DecidableEq, Repr

namespace Config

def validate (config : Config) : Result Unit := do
  ensure (4096 ≤ config.chunkBytes ∧ config.chunkBytes ≤ 64 * 1024 * 1024)
    "chunk-bytes must be 4096..67108864"
  ensure (512 ≤ config.udpPayloadBytes ∧ config.udpPayloadBytes ≤ 1200)
    "udp-payload-bytes must be 512..1200"
  ensure (2 ≤ config.udpWindowPackets ∧ config.udpWindowPackets ≤ 256)
    "udp-window-packets must be 2..256"
  ensure (10 ≤ config.udpInitialRtoMs ∧ config.udpInitialRtoMs ≤ 5000)
    "udp-initial-rto-ms must be 10..5000"
  ensure (1 ≤ config.udpMaxRetries ∧ config.udpMaxRetries ≤ 64)
    "udp-max-retries must be 1..64"
  ensure (1 ≤ config.udpMaxSessions ∧ config.udpMaxSessions ≤ 4096)
    "udp-max-sessions must be 1..4096"
  ensure (10 ≤ config.leaseSeconds ∧ config.leaseSeconds ≤ 86400)
    "lease-seconds must be 10..86400"

/-- The bounds that a configuration accepted by `validate` obeys. -/
structure Valid (config : Config) : Prop where
  chunk : 4096 ≤ config.chunkBytes ∧ config.chunkBytes ≤ 64 * 1024 * 1024
  payload : 512 ≤ config.udpPayloadBytes ∧ config.udpPayloadBytes ≤ 1200
  window : 2 ≤ config.udpWindowPackets ∧ config.udpWindowPackets ≤ 256
  initialRto : 10 ≤ config.udpInitialRtoMs ∧ config.udpInitialRtoMs ≤ 5000
  retries : 1 ≤ config.udpMaxRetries ∧ config.udpMaxRetries ≤ 64
  sessions : 1 ≤ config.udpMaxSessions ∧ config.udpMaxSessions ≤ 4096
  lease : 10 ≤ config.leaseSeconds ∧ config.leaseSeconds ≤ 86400

theorem validate_ok {config : Config} :
    config.validate = .ok () ↔ config.Valid := by
  simp only [validate, ensure_bind_ok, ensure_ok]
  constructor
  · intro given
    obtain ⟨chunk, payload, window, initialRto, retries, sessions, lease⟩ := given
    exact ⟨chunk, payload, window, initialRto, retries, sessions, lease⟩
  · intro given
    obtain ⟨chunk, payload, window, initialRto, retries, sessions, lease⟩ := given
    exact ⟨chunk, payload, window, initialRto, retries, sessions, lease⟩

theorem default_valid : ({} : Config).Valid := by
  constructor <;> decide

end Config

end TrainPool
