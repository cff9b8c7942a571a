import TrainPool.Transport.Rounds

namespace TrainPool

/-! What a sender learns from ACK and NACK packets, and that it learns nothing
else. -/

namespace Packet

/-- The sequences that a NACK covers and does not report as missing. -/
def cleared (packet : Packet) : Set ℕ :=
  { sequence | ∃ base bitmap window,
      parseBitmap packet.payload = .ok (base, bitmap, window) ∧
        base ≤ sequence ∧ bitmapContains bitmap (sequence - base) = false ∧
        sequence - base < ackBits }

/-- The sequences that a sender can take as received from a packet. -/
def vouches (packet : Packet) : Set ℕ :=
  { sequence | packet.kind = .ack ∧ sequence ∈ packet.report ∨
      packet.kind = .nack ∧ sequence ∈ packet.cleared }

variable {packet : Packet} {base window sequence : ℕ} {bits : List Bool}

theorem mem_report_bits (fits : base < 2 ^ 32)
    (payload : packet.payload = bitmapPayload base bits window)
    (member : sequence ∈ packet.report) :
    base ≤ sequence ∧ bits[sequence - base]? = some true := by
  obtain ⟨bitmap, parses, contains⟩ :=
    parseBitmap_bitmapPayload bits window fits
  obtain ⟨_, _, _, read, after, contained⟩ := member
  rw [payload, parses] at read
  cases read
  exact ⟨after, ((contains _).mp contained).2⟩

theorem mem_cleared_bits (fits : base < 2 ^ 32)
    (payload : packet.payload = bitmapPayload base bits window)
    (member : sequence ∈ packet.cleared) :
    base ≤ sequence ∧ sequence - base < ackBits ∧
      bits[sequence - base]? ≠ some true := by
  obtain ⟨bitmap, parses, contains⟩ :=
    parseBitmap_bitmapPayload bits window fits
  obtain ⟨_, _, _, read, after, clear, inside⟩ := member
  rw [payload, parses] at read
  cases read
  refine ⟨after, inside, ?_⟩
  intro set
  rw [(contains _).mpr ⟨inside, set⟩] at clear
  cases clear

theorem vouches_other (notAck : packet.kind ≠ .ack)
    (notNack : packet.kind ≠ .nack) : sequence ∉ packet.vouches := by
  intro member
  rcases member with ⟨kind, _⟩ | ⟨kind, _⟩
  · exact notAck kind
  · exact notNack kind

end Packet

namespace Window

variable {packetCount : Nat} {transferId : Uuid}

theorem lt_of_mem_acked {window : Window} {sequence : ℕ}
    (member : sequence ∈ window.acked) :
    sequence < window.acknowledged.length := by
  by_contra outside
  exact not_mem_acked (Nat.le_of_not_lt outside) member

theorem mem_acknowledge_negotiate {known : Nat → Bool}
    {ackBase offered sequence : ℕ} {window : Window}
    (member : sequence ∈
      ((window.negotiate offered).acknowledge known ackBase).acked) :
    sequence ∈ window.acked ∨
      ∃ index < ackBits, known index = true ∧
        ackBase + index = sequence := by
  have inside := lt_of_mem_acked member
  rw [length_acknowledge] at inside
  rcases (mem_acked_acknowledge inside).mp member with old | new
  · exact .inl old
  · obtain ⟨index, small, set, same⟩ := new
    exact .inr ⟨index, List.mem_range.mp small, set, same⟩

theorem readAcks_vouched {datagrams : List Datagram}
    {window next : Window} {sequence : ℕ}
    (read : window.readAcks packetCount transferId datagrams = .ok next)
    (member : sequence ∈ next.acked) :
    sequence ∈ window.acked ∨
      ∃ packet, .ok packet ∈ datagrams ∧
        packet.transferId = transferId ∧ sequence ∈ packet.vouches := by
  induction datagrams generalizing window with
  | nil =>
      cases read
      exact .inl member
  | cons datagram rest ih =>
      have later : ∀ {middle : Window},
          middle.readAcks packetCount transferId rest = .ok next →
          sequence ∈ middle.acked ∨
            ∃ packet, .ok packet ∈ datagram :: rest ∧
              packet.transferId = transferId ∧
                sequence ∈ packet.vouches := by
        intro middle read
        refine (ih read).imp id ?_
        intro given
        obtain ⟨packet, listed, vouched⟩ := given
        exact ⟨packet, List.mem_cons_of_mem _ listed, vouched⟩
      cases datagram with
      | error text => cases read
      | ok packet =>
          unfold readAcks at read
          split at read
          · exact later read
          · rename_i transfer
            split at read
            · cases read
            · rename_i kind
              split at read
              · rename_i ackBase bitmap offered parses
                rcases later read with middle | new
                · rcases mem_acknowledge_negotiate middle with old | new
                  · exact .inl old
                  · obtain ⟨index, _, known, rfl⟩ := new
                    simp only [Bool.and_eq_true] at known
                    refine .inr ⟨packet, List.mem_cons_self,
                      not_not.mp transfer, .inl ⟨kind, ackBase, bitmap,
                        offered, parses, Nat.le_add_right _ _, ?_⟩⟩
                    rw [Nat.add_sub_cancel_left]
                    exact known.2
                · exact .inr new
              · cases read
            · rename_i kind
              split at read
              · rename_i ackBase bitmap offered parses
                cases read
                rcases mem_acknowledge_negotiate member with old | new
                · exact .inl old
                · obtain ⟨index, small, known, rfl⟩ := new
                  simp only [Bool.and_eq_true, Bool.not_eq_true'] at known
                  refine .inr ⟨packet, List.mem_cons_self,
                    not_not.mp transfer, .inr ⟨kind, ackBase, bitmap,
                      offered, parses, Nat.le_add_right _ _, ?_⟩⟩
                  rw [Nat.add_sub_cancel_left]
                  exact ⟨known.2, small⟩
              · cases read
            · exact later read

/-- What a sender holds for acknowledged has been received, and it leaves no
packet behind that is not. -/
structure Backed (packetCount : ℕ) (received : Set ℕ) (window : Window) :
    Prop where
  slots : window.acknowledged.length = packetCount
  acked : window.acked ⊆ received
  passed : ∀ sequence < window.base, sequence ∈ window.acked

theorem Backed.mono {received more : Set ℕ} {window : Window}
    (backed : window.Backed packetCount received) (grown : received ⊆ more) :
    window.Backed packetCount more :=
  ⟨backed.slots, backed.acked.trans grown, backed.passed⟩

theorem Backed.reads {received : Set ℕ} {window next : Window}
    {datagrams : List Datagram}
    (backed : window.Backed packetCount received)
    (read : window.readAcks packetCount transferId datagrams = .ok next)
    (vouched : ∀ packet, .ok packet ∈ datagrams →
      packet.transferId = transferId →
        ∀ sequence ∈ packet.vouches, sequence < packetCount →
          sequence ∈ received) : next.Backed packetCount received := by
  have grows := readAcks_grows read
  have slots := grows.slots.trans backed.slots
  refine ⟨slots, ?_, ?_⟩
  · intro sequence member
    rcases readAcks_vouched read member with old | new
    · exact backed.acked old
    · obtain ⟨packet, listed, transfer, vouches⟩ := new
      exact vouched packet listed transfer sequence vouches
        (slots ▸ lt_of_mem_acked member)
  · intro sequence before
    rw [grows.range.1] at before
    exact grows.acked (backed.passed sequence before)

end Window

namespace Phase

def acked : Phase → Set ℕ
  | .window data | .round data | .awaitAcks data => data.acked
  | _ => ∅

/-- The invariant of a sender: its acknowledged packets are received, and all
of them are when it comes to FIN. -/
def Backed (packetCount : ℕ) (received : Set ℕ) : Phase → Prop
  | .window data => data.Backed packetCount received
  | .round data | .awaitAcks data =>
      data.Backed packetCount received ∧ data.finish ≤ packetCount
  | .fin _ | .awaitComplete _ =>
      ∀ sequence < packetCount, sequence ∈ received
  | _ => True

def Begun (packetCount : ℕ) : Phase → Prop
  | .ready | .returned _ => True
  | _ => 0 < packetCount

theorem Backed.acked {packetCount : ℕ} {received : Set ℕ} {phase : Phase}
    (backed : phase.Backed packetCount received) :
    ∀ sequence ∈ phase.acked,
      sequence < packetCount ∧ sequence ∈ received := by
  have windows : ∀ window : Window, window.Backed packetCount received →
      ∀ sequence ∈ window.acked,
        sequence < packetCount ∧ sequence ∈ received := by
    intro window backed sequence member
    exact ⟨backed.slots ▸ Window.lt_of_mem_acked member,
      backed.acked member⟩
  cases phase with
  | window window => exact windows window backed
  | round window => exact windows window backed.1
  | awaitAcks window => exact windows window backed.1
  | _ =>
      intro sequence member
      cases member

theorem Backed.mono {packetCount : ℕ} {received more : Set ℕ} {phase : Phase}
    (backed : phase.Backed packetCount received) (grown : received ⊆ more) :
    phase.Backed packetCount more := by
  cases phase with
  | window window => exact Window.Backed.mono backed grown
  | round window => exact ⟨backed.1.mono grown, backed.2⟩
  | awaitAcks window => exact ⟨backed.1.mono grown, backed.2⟩
  | fin attempt => exact fun sequence before => grown (backed sequence before)
  | awaitComplete attempt =>
      exact fun sequence before => grown (backed sequence before)
  | _ => trivial

end Phase

namespace SendPayload

variable {config : Config} {blake3 : List UInt8 → Digest}
  {destination : SocketAddr} {request : SendPayload} {phase next : Phase}
  {event : SendEvent} {packets : List Packet} {received : Set ℕ}

/-- A step of a sender to which the network brings nothing but what vouches for
received packets. -/
theorem step_backed
    (backed : phase.Backed (request.packetCount config) received)
    (vouched : ∀ datagrams, event = .receive destination datagrams →
      ∀ packet, .ok packet ∈ datagrams →
        packet.transferId = request.transferId →
          ∀ sequence ∈ packet.vouches,
            sequence < request.packetCount config → sequence ∈ received)
    (stepped : request.step config blake3 destination phase event =
      some (next, packets)) :
    next.Backed (request.packetCount config) received := by
  cases step_moves stepped with
  | opens retries datagrams receiverWindow read =>
      refine ⟨List.length_replicate, ?_, ?_⟩
      · intro sequence member
        simp [Window.acked, firstWindow, List.getD_eq_getElem?_getD,
          List.getElem?_replicate] at member
        split at member <;> cases member
      · intro sequence before
        cases before
  | sizes window more =>
      obtain ⟨slots, acked, passed⟩ := backed
      exact ⟨⟨slots, acked, passed⟩, Nat.min_le_right _ _⟩
  | finishes window done =>
      obtain ⟨slots, acked, passed⟩ := backed
      intro sequence before
      exact acked (passed sequence (before.trans_le done))
  | sends window pending => exact backed
  | passes window shut =>
      obtain ⟨⟨slots, acked, passed⟩, inside⟩ := backed
      refine ⟨slots, acked, ?_⟩
      intro sequence before
      by_cases old : sequence < window.base
      · exact passed sequence old
      · by_contra missing
        have pending := (Window.pending_iff (slots ▸ inside)).mpr
          ⟨sequence, by omega, before, missing⟩
        rw [shut] at pending
        cases pending
  | repeats window event negotiated few =>
      obtain ⟨⟨slots, acked, passed⟩, inside⟩ := backed
      exact ⟨⟨slots, acked, passed⟩, inside⟩
  | acknowledges window after datagrams read =>
      obtain ⟨backed, inside⟩ := backed
      refine ⟨backed.reads read (vouched datagrams rfl), ?_⟩
      rw [(Window.readAcks_grows read).range.2.1]
      exact inside
  | strays window event => exact backed
  | ends attempt few => exact backed
  | endsAgain attempt event => exact backed
  | _ => trivial

theorem packetCount_pos (positive : 0 < config.udpPayloadBytes)
    (nonempty : request.payload ≠ []) : 0 < request.packetCount config :=
  Slice.divCeil_pos positive (List.length_pos_of_ne_nil nonempty)

theorem step_begun (positive : 0 < config.udpPayloadBytes)
    (begun : phase.Begun (request.packetCount config))
    (stepped : request.step config blake3 destination phase event =
      some (next, packets)) : next.Begun (request.packetCount config) := by
  cases step_moves stepped with
  | checks checked =>
      apply packetCount_pos positive
      intro empty
      rw [check, if_pos empty] at checked
      cases checked
  | completes attempt datagrams read => trivial
  | fails phase event error => trivial
  | _ => exact begun

theorem step_fin {packet : Packet} {result : Phase × List Packet}
    (stepped : request.step config blake3 destination phase event =
      some result) (sent : packet ∈ result.2) (kind : packet.kind = .fin) :
    ∃ attempt, phase = .fin attempt := by
  obtain ⟨next, packets⟩ := result
  cases step_moves stepped with
  | ends attempt few => exact ⟨attempt, rfl⟩
  | starts retries =>
      obtain rfl := List.mem_singleton.mp sent
      cases kind
  | sends window pending =>
      obtain ⟨_, _, rfl⟩ := List.mem_map.mp sent
      cases kind
  | fails phase event error =>
      obtain rfl := List.mem_singleton.mp sent
      cases kind
  | _ => cases sent

end SendPayload

end TrainPool
