import Mathlib.Data.List.Infix
import TrainPool.Basic
import TrainPool.Library.Bytes
import TrainPool.Library.Execution

namespace TrainPool

open Execution

/-! The mutual authentication of a connection.  All parties here hold one
cluster secret; an attacker without it carries every message, and may drop,
repeat, reorder and invent messages as it likes. -/

abbrev Nonce := BitVec 128

def hyphenate (digits : List Char) : List Char :=
  digits.take 8 ++ '-' :: ((digits.drop 8).take 4 ++
    '-' :: ((digits.drop 12).take 4 ++
      '-' :: ((digits.drop 16).take 4 ++ '-' :: digits.drop 20)))

def Nonce.digits (nonce : Nonce) : List Char :=
  (Bytes.toHex (Bytes.toBigEndian 16 nonce.toNat)).toList

/-- The `Display` of a UUID, and the `str` of the SDK. -/
def Nonce.display (nonce : Nonce) : String :=
  String.ofList (hyphenate nonce.digits)

def transcript (role server client cluster : String) : String :=
  s!"{role}|{server}|{client}|{cluster}"

/-- A string supplied as the tag of a text: what `signature` writes for some
text under the secret, the same digest in other hexadecimal digits, or a
string that is no digest of any text under the secret. -/
inductive Tag where
  | signed (text : String)
  | respelt (text : String)
  | other (content : String)
  deriving DecidableEq, Repr

def Tag.text : Tag → Option String
  | .signed text | .respelt text => some text
  | .other _ => none

def signature (text : String) : Tag := .signed text

/-- `verify` of a daemon that has a secret.  It compares the decoded digest. -/
def verify (text : String) : Option Tag → Result Unit
  | some tag => ensure (tag.text = some text) "TRAINPOOL_AUTH_FAILED"
  | none => .error (.error "TRAINPOOL_AUTH_FAILED: cluster secret mismatch")

structure Authentication where
  clusterName : String
  nonce : Nonce
  mac : Option Tag
  deriving DecidableEq, Repr

/-- The answer of a server.  Only the SDK reads `ok` and `error`. -/
structure Authenticated where
  mac : Option Tag
  ok : Option Bool := none
  error : Option String := none
  deriving DecidableEq, Repr

/-- `server_auth`, once its challenge is answered. -/
def serverAuth (cluster : String) (server : Nonce) (auth : Authentication) :
    Result Authenticated := do
  ensure (auth.clusterName = cluster) "TRAINPOOL_CLUSTER_MISMATCH"
  verify (transcript "client" server.display auth.nonce.display cluster)
    auth.mac
  pure { mac := some (signature
    (transcript "server" server.display auth.nonce.display cluster)) }

inductive Implementation where
  | daemon
  | sdk
  deriving DecidableEq, Repr

/-- The nonce of a challenge, which a daemon reads as a UUID and the SDK as
text. -/
inductive Challenge where
  | uuid (nonce : Nonce)
  | text (nonce : String)
  deriving DecidableEq, Repr

namespace Challenge

def shown : Challenge → String
  | .uuid nonce => nonce.display
  | .text nonce => nonce

def SuitedTo : Challenge → Implementation → Prop
  | .uuid _, .daemon | .text _, .sdk => True
  | _, _ => False

instance : (challenge : Challenge) → (implementation : Implementation) →
    Decidable (challenge.SuitedTo implementation)
  | .uuid _, .daemon | .text _, .sdk => isTrue trivial
  | .uuid _, .sdk | .text _, .daemon => isFalse id

end Challenge

def answer (cluster server : String) (client : Nonce) : Authentication where
  clusterName := cluster
  nonce := client
  mac := some (signature
    (transcript "client" server client.display cluster))

/-- How a client concludes.  The SDK compares the text of the tag itself. -/
def conclude (implementation : Implementation) (cluster server : String)
    (client : Nonce) (accepted : Authenticated) : Result Unit :=
  let text := transcript "server" server client.display cluster
  match implementation with
  | .daemon => verify text accepted.mac
  | .sdk => do
      ensure (accepted.ok ≠ some false)
        ((accepted.error.filter (· ≠ "")).getD "TrainPool protocol error")
      ensure (accepted.mac = some (signature text)) "TRAINPOOL_AUTH_FAILED"

/-! The connections of all parties. -/

inductive ServerPhase where
  | challenged
  | accepted (client : Nonce)
  | failed
  deriving DecidableEq, Repr

structure ServerConnection where
  cluster : String
  nonce : Nonce
  phase : ServerPhase := .challenged
  deriving DecidableEq, Repr

inductive ClientPhase where
  | dialled
  | answered (server : String) (client : Nonce)
  | connected (server : String) (client : Nonce)
  | failed
  deriving DecidableEq, Repr

structure ClientConnection where
  implementation : Implementation
  cluster : String
  phase : ClientPhase := .dialled
  deriving DecidableEq, Repr

/-- A tag that an honest party has computed: on the client side or the server
side of a connection, or for a discovery announcement. -/
inductive Computed where
  | clientSide (server : String) (client : Nonce) (cluster : String)
  | serverSide (server client : Nonce) (cluster : String)
  | announcement (payload : String)
  deriving DecidableEq, Repr

def Computed.text : Computed → String
  | .clientSide server client cluster =>
      transcript "client" server client.display cluster
  | .serverSide server client cluster =>
      transcript "server" server.display client.display cluster
  | .announcement payload => payload

structure Network where
  servers : List ServerConnection := []
  clients : List ClientConnection := []
  computed : List Computed := []
  nonces : List Nonce := []
  deriving DecidableEq, Repr

inductive NetworkEvent where
  | accept (cluster : String) (nonce : Nonce)
  | authenticate (index : Nat) (auth : Authentication)
  | dial (implementation : Implementation) (cluster : String)
  | challenge (index : Nat) (challenge : Challenge) (nonce : Nonce)
  | confirm (index : Nat) (accepted : Authenticated)
  | announce (payload : String)
  deriving DecidableEq, Repr

namespace Network

variable (clusters : List String)

def Deliverable (network : Network) (mac : Option Tag) : Prop :=
  ∀ text ∈ mac.bind Tag.text, text ∈ network.computed.map Computed.text

instance (network : Network) (mac : Option Tag) :
    Decidable (network.Deliverable mac) :=
  inferInstanceAs (Decidable (∀ text ∈ mac.bind Tag.text, _))

/-- A new nonce is none that was drawn before, and occurs in no cluster
name. -/
def Fresh (network : Network) (nonce : Nonce) : Prop :=
  nonce ∉ network.nonces ∧
    ∀ cluster ∈ clusters, ¬nonce.display.toList <:+: cluster.toList

instance (network : Network) (nonce : Nonce) :
    Decidable (network.Fresh clusters nonce) :=
  inferInstanceAs (Decidable (_ ∧ _))

/-- A daemon takes a connection or learns the answer to its challenge; a
client dials, learns its challenge or the answer of the server; a daemon
announces itself, in an object of JSON. -/
def step (network : Network) : NetworkEvent → Option Network
  | .accept cluster nonce =>
      if cluster ∈ clusters ∧ network.Fresh clusters nonce then
        some { network with
          servers := network.servers ++ [{ cluster, nonce }]
          nonces := nonce :: network.nonces }
      else
        none
  | .authenticate index auth =>
      if network.Deliverable auth.mac then
        match network.servers[index]? with
        | some ⟨cluster, nonce, .challenged⟩ =>
            match serverAuth cluster nonce auth with
            | .ok _ => some { network with
                servers := network.servers.set index
                  ⟨cluster, nonce, .accepted auth.nonce⟩
                computed :=
                  .serverSide nonce auth.nonce cluster :: network.computed }
            | .error _ => some { network with
                servers :=
                  network.servers.set index ⟨cluster, nonce, .failed⟩ }
        | _ => none
      else
        none
  | .dial implementation cluster =>
      if cluster ∈ clusters then
        some { network with
          clients := network.clients ++ [{ implementation, cluster }] }
      else
        none
  | .challenge index challenge nonce =>
      match network.clients[index]? with
      | some ⟨implementation, cluster, .dialled⟩ =>
          if challenge.SuitedTo implementation ∧
              network.Fresh clusters nonce then
            some { network with
              clients := network.clients.set index
                ⟨implementation, cluster, .answered challenge.shown nonce⟩
              computed :=
                .clientSide challenge.shown nonce cluster ::
                  network.computed
              nonces := nonce :: network.nonces }
          else
            none
      | _ => none
  | .confirm index accepted =>
      if network.Deliverable accepted.mac then
        match network.clients[index]? with
        | some ⟨implementation, cluster, .answered server client⟩ =>
            match conclude implementation cluster server client accepted with
            | .ok _ => some { network with
                clients := network.clients.set index
                  ⟨implementation, cluster, .connected server client⟩ }
            | .error _ => some { network with
                clients := network.clients.set index
                  ⟨implementation, cluster, .failed⟩ }
        | _ => none
      else
        none
  | .announce payload =>
      if payload.toList.head? = some '{' then
        some { network with
          computed := .announcement payload :: network.computed }
      else
        none

end Network

/-! A transcript says what it was computed for. -/

section Transcript

variable {α : Type} {separator : α}

/-- Two texts that start with a field each, of which the second has no
separator in it. -/
theorem first_field {left right more rest : List α}
    (clean : separator ∉ right)
    (same : left ++ separator :: more = right ++ separator :: rest) :
    left = right ∧ more = rest ∨
      ∃ between, left = right ++ separator :: between ∧
        rest = between ++ separator :: more := by
  rcases List.append_eq_append_iff.mp same with ⟨between, longer, shorter⟩ |
    ⟨between, longer, shorter⟩
  · cases between with
    | nil =>
        rw [List.append_nil] at longer
        exact .inl ⟨longer.symm, (List.cons.inj shorter).2⟩
    | cons first others =>
        obtain ⟨rfl, _⟩ := List.cons.inj shorter
        exact absurd (longer ▸ List.mem_append_right _ List.mem_cons_self)
          clean
  · cases between with
    | nil =>
        rw [List.append_nil] at longer
        exact .inl ⟨longer, (List.cons.inj shorter).2.symm⟩
    | cons first others =>
        obtain ⟨rfl, rest⟩ := List.cons.inj shorter
        exact .inr ⟨others, longer, rest⟩

/-- Three fields whose last may hold separators.  Where the first may hold
them too, the second ends up in the other last field. -/
theorem three_fields {server challenge drawn client other name : List α}
    (cleanChallenge : separator ∉ challenge)
    (cleanClient : separator ∉ client) (cleanDrawn : separator ∉ drawn)
    (same : server ++ separator :: (drawn ++ separator :: other) =
      challenge ++ separator :: (client ++ separator :: name)) :
    (server = challenge ∧ drawn = client ∧ other = name) ∨
      drawn <:+: name := by
  rcases first_field cleanChallenge same with ⟨servers, rest⟩ |
    ⟨between, _, rest⟩
  · rcases first_field cleanClient rest with ⟨clients, names⟩ |
      ⟨between, clients, _⟩
    · exact .inl ⟨servers, clients, names⟩
    · apply absurd _ cleanDrawn
      rw [clients]
      exact List.mem_append_right _ List.mem_cons_self
  · right
    rcases first_field cleanClient rest.symm with ⟨_, names⟩ |
      ⟨before, _, names⟩
    · exact ⟨[], separator :: other, names⟩
    · exact ⟨before ++ [separator], separator :: other, by simp [names]⟩

theorem hyphenate_filter {digits : List Char} (plain : '-' ∉ digits) :
    (hyphenate digits).filter (· ≠ '-') = digits := by
  have kept : ∀ part : List Char, part.Sublist digits →
      part.filter (· ≠ '-') = part := by
    intro part sub
    apply List.filter_eq_self.mpr
    intro digit member
    refine decide_eq_true ?_
    rintro rfl
    exact plain (sub.subset member)
  have dropped := fun count : Nat => List.drop_sublist count digits
  have piece := fun start count : Nat =>
    (List.take_sublist count (digits.drop start)).trans (dropped start)
  have joined : ∀ start, (digits.drop start).take 4 ++
      digits.drop (start + 4) = digits.drop start := by
    intro start
    rw [← List.drop_drop, List.take_append_drop]
  simp only [hyphenate, List.filter_append, List.filter_cons,
    kept _ (List.take_sublist 8 digits), kept _ (piece 8 4),
    kept _ (piece 12 4), kept _ (piece 16 4), kept _ (dropped 20),
    ne_eq, not_true_eq_false, decide_false, Bool.false_eq_true, if_false]
  rw [joined 16, joined 12, joined 8, List.take_append_drop]

theorem hyphenate_subset {digits : List Char} {char : Char}
    (member : char ∈ hyphenate digits) : char = '-' ∨ char ∈ digits := by
  simp only [hyphenate, List.mem_append, List.mem_cons] at member
  rcases member with early | rfl | early | rfl | early | rfl | early | rfl |
    late
  · exact .inr (List.mem_of_mem_take early)
  · exact .inl rfl
  · exact .inr (List.mem_of_mem_drop (List.mem_of_mem_take early))
  · exact .inl rfl
  · exact .inr (List.mem_of_mem_drop (List.mem_of_mem_take early))
  · exact .inl rfl
  · exact .inr (List.mem_of_mem_drop (List.mem_of_mem_take early))
  · exact .inl rfl
  · exact .inr (List.mem_of_mem_drop late)

theorem Nonce.not_mem_digits {nonce : Nonce} {char : Char}
    (other : ∀ value : Fin 16, char ≠ Bytes.hexDigit value) :
    char ∉ nonce.digits := by
  intro member
  obtain ⟨value, small, rfl⟩ := Bytes.toHex_digit member
  exact other ⟨value, small⟩ rfl

theorem Nonce.clean_display (nonce : Nonce) :
    '|' ∉ nonce.display.toList := by
  intro member
  rw [display, String.toList_ofList] at member
  rcases hyphenate_subset member with equal | digit
  · exact absurd equal (by decide)
  · exact not_mem_digits (by decide) digit

theorem Nonce.display_injective {left right : Nonce}
    (same : left.display = right.display) : left = right := by
  have texts := congrArg String.toList same
  simp only [display, String.toList_ofList] at texts
  have filtered := congrArg (List.filter (· ≠ '-')) texts
  rw [hyphenate_filter (not_mem_digits (by decide)),
    hyphenate_filter (not_mem_digits (by decide))] at filtered
  have digits := Bytes.toHex_injective (String.toList_inj.mp filtered)
  have values := congrArg Bytes.fromBigEndian digits
  rw [Bytes.fromBigEndian_toBigEndian left.isLt,
    Bytes.fromBigEndian_toBigEndian right.isLt] at values
  exact BitVec.eq_of_toNat_eq values

theorem Nonce.length_display (nonce : Nonce) :
    nonce.display.toList.length = 36 := by
  have digits : nonce.digits.length = 32 := by
    simp [Nonce.digits, Bytes.length_toHex]
  simp only [display, String.toList_ofList, hyphenate, List.length_append,
    List.length_cons, List.length_take, List.length_drop, digits]
  omega

theorem transcript_toList (role server client cluster : String) :
    (transcript role server client cluster).toList = role.toList ++ '|' ::
      (server.toList ++ '|' ::
        (client.toList ++ '|' :: cluster.toList)) := by
  simp [transcript, toString]

/-- The nonces and the cluster of a transcript are determined, unless the
nonce of a client occurs in the name of the cluster. -/
theorem transcript_cases {role server name other : String}
    {challenge client drawn : Nonce}
    (same : transcript role server drawn.display other =
      transcript role challenge.display client.display name) :
    (server = challenge.display ∧ drawn = client ∧ other = name) ∨
      drawn.display.toList <:+: name.toList := by
  have texts := congrArg String.toList same
  rw [transcript_toList, transcript_toList] at texts
  have fields := (List.cons.inj (List.append_cancel_left texts)).2
  rcases three_fields challenge.clean_display client.clean_display
    drawn.clean_display fields with ⟨servers, clients, names⟩ | inside
  · left
    exact ⟨String.toList_inj.mp servers,
      Nonce.display_injective (String.toList_inj.mp clients),
      String.toList_inj.mp names⟩
  · exact .inr inside

theorem transcript_role {server client cluster server' client' cluster' :
    String} :
    transcript "client" server client cluster ≠
      transcript "server" server' client' cluster' := by
  intro same
  have texts := congrArg String.toList same
  rw [transcript_toList, transcript_toList] at texts
  cases texts

end Transcript

theorem verify_ok {text : String} {mac : Option Tag} :
    verify text mac = .ok () ↔ mac.bind Tag.text = some text := by
  cases mac with
  | none => simp [verify]
  | some tag => simp [verify]

theorem serverAuth_ok {cluster : String} {server : Nonce}
    {auth : Authentication} {reply : Authenticated}
    (passed : serverAuth cluster server auth = .ok reply) :
    auth.mac.bind Tag.text = some
      (transcript "client" server.display auth.nonce.display cluster) := by
  unfold serverAuth at passed
  obtain ⟨_, passed⟩ := ensure_bind_ok.mp passed
  obtain ⟨_, verified, _⟩ := bind_ok.mp passed
  exact verify_ok.mp verified

theorem conclude_ok {implementation : Implementation}
    {cluster server : String} {client : Nonce} {accepted : Authenticated}
    (passed : conclude implementation cluster server client accepted =
      .ok ()) :
    accepted.mac.bind Tag.text = some
      (transcript "server" server client.display cluster) := by
  cases implementation with
  | daemon => exact verify_ok.mp passed
  | sdk =>
      obtain ⟨_, passed⟩ := ensure_bind_ok.mp passed
      rw [ensure_ok.mp passed]
      rfl

namespace Network

structure Sound (clusters : List String) (network : Network) : Prop where
  named : ∀ connection ∈ network.servers, connection.cluster ∈ clusters
  unguessed : ∀ server client cluster,
    .clientSide server client cluster ∈ network.computed →
      ∀ name ∈ clusters, ¬client.display.toList <:+: name.toList
  announced : ∀ payload, .announcement payload ∈ network.computed →
    payload.toList.head? = some '{'
  served : ∀ server client cluster,
    .serverSide server client cluster ∈ network.computed →
      ⟨cluster, server, .accepted client⟩ ∈ network.servers
  accepted : ∀ cluster server client,
    ⟨cluster, server, .accepted client⟩ ∈ network.servers →
      transcript "client" server.display client.display cluster ∈
        network.computed.map Computed.text
  answered : ∀ implementation cluster server client,
    ⟨implementation, cluster, .answered server client⟩ ∈ network.clients ∨
        ⟨implementation, cluster, .connected server client⟩ ∈
          network.clients →
      .clientSide server client cluster ∈ network.computed
  connected : ∀ implementation cluster server client,
    ⟨implementation, cluster, .connected server client⟩ ∈ network.clients →
      transcript "server" server client.display cluster ∈
        network.computed.map Computed.text

section

variable {clusters : List String} {network next : Network}
  {event : NetworkEvent}

theorem Sound.client_computed (sound : network.Sound clusters)
    {server client : Nonce} {cluster : String} (name : cluster ∈ clusters)
    (computed : transcript "client" server.display client.display cluster ∈
      network.computed.map Computed.text) :
    .clientSide server.display client cluster ∈ network.computed := by
  obtain ⟨source, member, same⟩ := List.mem_map.mp computed
  cases source with
  | clientSide challenge drawn other =>
      rcases transcript_cases same with ⟨rfl, rfl, rfl⟩ | inside
      · exact member
      · exact absurd inside (sound.unguessed _ _ _ member cluster name)
  | serverSide challenge drawn other => exact absurd same.symm transcript_role
  | announcement payload =>
      have head := sound.announced payload member
      rw [show payload = _ from same, transcript_toList] at head
      cases head

/-- The tag of a server-side text for the nonce of a client was computed by
that server. -/
theorem Sound.server_computed (sound : network.Sound clusters)
    {server cluster : String} {client : Nonce}
    (drawn : .clientSide server client cluster ∈ network.computed)
    (computed : transcript "server" server client.display cluster ∈
      network.computed.map Computed.text) :
    ∃ nonce : Nonce, nonce.display = server ∧
      .serverSide nonce client cluster ∈ network.computed := by
  obtain ⟨source, member, same⟩ := List.mem_map.mp computed
  cases source with
  | clientSide challenge other name => exact absurd same transcript_role
  | serverSide challenge other name =>
      rcases transcript_cases same.symm with ⟨rfl, rfl, rfl⟩ | inside
      · exact ⟨challenge, rfl, member⟩
      · exact absurd inside (sound.unguessed _ _ _ drawn name
          (sound.named _ (sound.served _ _ _ member)))
  | announcement payload =>
      have head := sound.announced payload member
      rw [show payload = _ from same, transcript_toList] at head
      cases head

theorem Deliverable.computed {mac : Option Tag}
    (deliverable : network.Deliverable mac) {text : String}
    (carries : mac.bind Tag.text = some text) :
    text ∈ network.computed.map Computed.text :=
  deliverable text carries

theorem mem_set_of_ne {α : Type} {items : List α} {index : Nat}
    {old new kept : α} (found : items[index]? = some old)
    (member : kept ∈ items) (other : kept ≠ old) :
    kept ∈ items.set index new := by
  obtain ⟨place, here⟩ := List.mem_iff_getElem?.mp member
  refine List.mem_iff_getElem?.mpr ⟨place, ?_⟩
  rw [List.getElem?_set_ne, here]
  rintro rfl
  exact other (Option.some.inj (here.symm.trans found))

theorem Sound.accept (sound : network.Sound clusters) {cluster : String}
    {nonce : Nonce} (known : cluster ∈ clusters) :
    Sound clusters { network with
      servers := network.servers ++ [{ cluster, nonce }]
      nonces := nonce :: network.nonces } where
  named := by
    intro connection member
    rcases List.mem_append.mp member with old | new
    · exact sound.named connection old
    · rw [List.mem_singleton.mp new]
      exact known
  unguessed := sound.unguessed
  announced := sound.announced
  served := fun server client name computed =>
    List.mem_append_left _ (sound.served server client name computed)
  accepted := by
    intro name server client member
    rcases List.mem_append.mp member with old | new
    · exact sound.accepted name server client old
    · cases List.mem_singleton.mp new
  answered := sound.answered
  connected := sound.connected

theorem Sound.authenticate (sound : network.Sound clusters) {index : Nat}
    {auth : Authentication} {cluster : String} {nonce : Nonce}
    {reply : Authenticated} (deliverable : network.Deliverable auth.mac)
    (found : network.servers[index]? = some ⟨cluster, nonce, .challenged⟩)
    (passed : serverAuth cluster nonce auth = .ok reply) :
    Sound clusters { network with
      servers := network.servers.set index
        ⟨cluster, nonce, .accepted auth.nonce⟩
      computed := .serverSide nonce auth.nonce cluster ::
        network.computed } where
  named := by
    intro connection member
    rcases List.mem_or_eq_of_mem_set member with old | rfl
    · exact sound.named connection old
    · exact sound.named ⟨cluster, nonce, .challenged⟩
        (List.mem_of_getElem? found)
  unguessed := by
    intro server client name computed
    rcases List.mem_cons.mp computed with new | old
    · cases new
    · exact sound.unguessed server client name old
  announced := by
    intro payload computed
    rcases List.mem_cons.mp computed with new | old
    · cases new
    · exact sound.announced payload old
  served := by
    intro server client name computed
    rcases List.mem_cons.mp computed with new | old
    · cases new
      have inside := (List.getElem?_eq_some_iff.mp found).1
      exact List.mem_set inside _
    · exact mem_set_of_ne found (sound.served server client name old) nofun
  accepted := by
    intro name server client member
    apply List.mem_cons_of_mem
    rcases List.mem_or_eq_of_mem_set member with old | new
    · exact sound.accepted name server client old
    · cases new
      exact deliverable.computed (serverAuth_ok passed)
  answered := fun implementation name server client member =>
    List.mem_cons_of_mem _
      (sound.answered implementation name server client member)
  connected := fun implementation name server client member =>
    List.mem_cons_of_mem _
      (sound.connected implementation name server client member)

theorem Sound.refuse (sound : network.Sound clusters) {index : Nat}
    {cluster : String} {nonce : Nonce}
    (found : network.servers[index]? = some ⟨cluster, nonce, .challenged⟩) :
    Sound clusters { network with
      servers := network.servers.set index ⟨cluster, nonce, .failed⟩ } where
  named := by
    intro connection member
    rcases List.mem_or_eq_of_mem_set member with old | rfl
    · exact sound.named connection old
    · exact sound.named ⟨cluster, nonce, .challenged⟩
        (List.mem_of_getElem? found)
  unguessed := sound.unguessed
  announced := sound.announced
  served := fun server client name computed =>
    mem_set_of_ne found (sound.served server client name computed) nofun
  accepted := by
    intro name server client member
    rcases List.mem_or_eq_of_mem_set member with old | new
    · exact sound.accepted name server client old
    · cases new
  answered := sound.answered
  connected := sound.connected

theorem Sound.dial (sound : network.Sound clusters)
    (implementation : Implementation) (cluster : String) :
    Sound clusters { network with
      clients := network.clients ++ [{ implementation, cluster }] } where
  named := sound.named
  unguessed := sound.unguessed
  announced := sound.announced
  served := sound.served
  accepted := sound.accepted
  answered := by
    intro other name server client member
    apply sound.answered other name server client
    rcases member with member | member
    · rcases List.mem_append.mp member with old | new
      · exact .inl old
      · cases List.mem_singleton.mp new
    · rcases List.mem_append.mp member with old | new
      · exact .inr old
      · cases List.mem_singleton.mp new
  connected := by
    intro other name server client member
    rcases List.mem_append.mp member with old | new
    · exact sound.connected other name server client old
    · cases List.mem_singleton.mp new

theorem Sound.challenge (sound : network.Sound clusters) {index : Nat}
    {implementation : Implementation} {cluster server : String}
    {nonce : Nonce} (fresh : network.Fresh clusters nonce) :
    Sound clusters { network with
      clients := network.clients.set index
        ⟨implementation, cluster, .answered server nonce⟩
      computed := .clientSide server nonce cluster :: network.computed
      nonces := nonce :: network.nonces } where
  named := sound.named
  unguessed := by
    intro challenge client name computed
    rcases List.mem_cons.mp computed with new | old
    · cases new
      exact fresh.2
    · exact sound.unguessed challenge client name old
  announced := by
    intro payload computed
    rcases List.mem_cons.mp computed with new | old
    · cases new
    · exact sound.announced payload old
  served := by
    intro challenge client name computed
    rcases List.mem_cons.mp computed with new | old
    · cases new
    · exact sound.served challenge client name old
  accepted := fun name challenge client member =>
    List.mem_cons_of_mem _ (sound.accepted name challenge client member)
  answered := by
    intro other name challenge client member
    rcases member with member | member
    · rcases List.mem_or_eq_of_mem_set member with old | new
      · exact List.mem_cons_of_mem _
          (sound.answered other name challenge client (.inl old))
      · cases new
        exact List.mem_cons_self
    · rcases List.mem_or_eq_of_mem_set member with old | new
      · exact List.mem_cons_of_mem _
          (sound.answered other name challenge client (.inr old))
      · cases new
  connected := by
    intro other name challenge client member
    rcases List.mem_or_eq_of_mem_set member with old | new
    · exact List.mem_cons_of_mem _
        (sound.connected other name challenge client old)
    · cases new

theorem Sound.conclude (sound : network.Sound clusters) {index : Nat}
    {implementation : Implementation} {cluster server : String}
    {client : Nonce} {phase : ClientPhase}
    (found : network.clients[index]? =
      some ⟨implementation, cluster, .answered server client⟩)
    (concluded : phase = .failed ∨ phase = .connected server client ∧
      transcript "server" server client.display cluster ∈
        network.computed.map Computed.text) :
    Sound clusters { network with
      clients := network.clients.set index
        ⟨implementation, cluster, phase⟩ } where
  named := sound.named
  unguessed := sound.unguessed
  announced := sound.announced
  served := sound.served
  accepted := sound.accepted
  answered := by
    intro other name challenge drawn member
    rcases member with member | member
    · rcases List.mem_or_eq_of_mem_set member with old | new
      · exact sound.answered other name challenge drawn (.inl old)
      · rcases concluded with rfl | ⟨rfl, _⟩ <;> cases new
    · rcases List.mem_or_eq_of_mem_set member with old | new
      · exact sound.answered other name challenge drawn (.inr old)
      · rcases concluded with rfl | ⟨rfl, _⟩ <;> cases new
        exact sound.answered _ _ _ _ (.inl (List.mem_of_getElem? found))
  connected := by
    intro other name challenge drawn member
    rcases List.mem_or_eq_of_mem_set member with old | new
    · exact sound.connected other name challenge drawn old
    · rcases concluded with rfl | ⟨rfl, computed⟩ <;> cases new
      exact computed

theorem Sound.announce (sound : network.Sound clusters) {payload : String}
    (object : payload.toList.head? = some '{') :
    Sound clusters { network with
      computed := .announcement payload :: network.computed } where
  named := sound.named
  unguessed := by
    intro server client name computed
    rcases List.mem_cons.mp computed with new | old
    · cases new
    · exact sound.unguessed server client name old
  announced := by
    intro other computed
    rcases List.mem_cons.mp computed with new | old
    · cases new
      exact object
    · exact sound.announced other old
  served := by
    intro server client name computed
    rcases List.mem_cons.mp computed with new | old
    · cases new
    · exact sound.served server client name old
  accepted := fun name server client member =>
    List.mem_cons_of_mem _ (sound.accepted name server client member)
  answered := fun implementation name server client member =>
    List.mem_cons_of_mem _
      (sound.answered implementation name server client member)
  connected := fun implementation name server client member =>
    List.mem_cons_of_mem _
      (sound.connected implementation name server client member)

theorem Sound.step (sound : network.Sound clusters)
    (stepped : network.step clusters event = some next) :
    next.Sound clusters := by
  cases event with
  | accept cluster nonce =>
      simp only [Network.step] at stepped
      split at stepped
      · rename_i guard
        cases stepped
        exact sound.accept guard.1
      · cases stepped
  | authenticate index auth =>
      simp only [Network.step] at stepped
      split at stepped
      · rename_i deliverable
        split at stepped
        · rename_i cluster nonce found
          split at stepped
          · rename_i passed
            cases stepped
            exact sound.authenticate deliverable found passed
          · cases stepped
            exact sound.refuse found
        · cases stepped
      · cases stepped
  | dial implementation cluster =>
      simp only [Network.step] at stepped
      split at stepped
      · cases stepped
        exact sound.dial implementation cluster
      · cases stepped
  | challenge index challenge nonce =>
      simp only [Network.step] at stepped
      split at stepped
      · split at stepped
        · rename_i guard
          cases stepped
          exact sound.challenge guard.2
        · cases stepped
      · cases stepped
  | confirm index accepted =>
      simp only [Network.step] at stepped
      split at stepped
      · rename_i deliverable
        split at stepped
        · rename_i found
          split at stepped
          · rename_i passed
            cases stepped
            exact sound.conclude found
              (.inr ⟨rfl, deliverable.computed (conclude_ok passed)⟩)
          · cases stepped
            exact sound.conclude found (.inl rfl)
        · cases stepped
      · cases stepped
  | announce payload =>
      simp only [Network.step] at stepped
      split at stepped
      · rename_i object
        cases stepped
        exact sound.announce object
      · cases stepped

theorem sound_empty (clusters : List String) : Sound clusters {} where
  named := nofun
  unguessed := nofun
  announced := nofun
  served := nofun
  accepted := nofun
  answered := by
    intro implementation cluster server client member
    rcases member with member | member <;> cases member
  connected := nofun

/-- Whoever is accepted was there: the peer of an accepted connection has
computed its tag for the same nonces and the same cluster. -/
theorem mutual_authentication {events : List NetworkEvent}
    {final : Network} (ran : run (step clusters) {} events = some final) :
    (∀ cluster server client,
      ⟨cluster, server, .accepted client⟩ ∈ final.servers →
        .clientSide server.display client cluster ∈ final.computed) ∧
      (∀ implementation cluster server client,
        ⟨implementation, cluster, .connected server client⟩ ∈
            final.clients →
          ∃ nonce : Nonce, nonce.display = server ∧
            ⟨cluster, nonce, .accepted client⟩ ∈ final.servers ∧
            .serverSide nonce client cluster ∈ final.computed) ∧
      (∀ cluster server auth reply,
        serverAuth cluster server auth = .ok reply →
          ∀ challenge client name, auth.mac.bind Tag.text ≠
            some (transcript "server" challenge client name)) ∧
      ∀ implementation cluster server client accepted,
        conclude implementation cluster server client accepted = .ok () →
          ∀ challenge drawn name, accepted.mac.bind Tag.text ≠
            some (transcript "client" challenge drawn name) := by
  have sound : final.Sound clusters :=
    run_invariant (Sound clusters) (fun _ _ _ sound => sound.step)
      (sound_empty clusters) ran
  refine ⟨?_, ?_, ?_, ?_⟩
  · intro cluster server client member
    exact sound.client_computed (sound.named _ member)
      (sound.accepted cluster server client member)
  · intro implementation cluster server client member
    obtain ⟨nonce, same, computed⟩ := sound.server_computed
      (sound.answered implementation cluster server client (.inr member))
      (sound.connected implementation cluster server client member)
    exact ⟨nonce, same, sound.served _ _ _ computed, computed⟩
  · intro cluster server auth reply passed challenge client name same
    exact transcript_role (Option.some.inj ((serverAuth_ok passed).symm.trans
      same))
  · intro implementation cluster server client accepted passed challenge
      drawn name same
    exact transcript_role (Option.some.inj (same.symm.trans
      (conclude_ok passed)))

end

theorem serverAuth_answer (cluster : String) (server client : Nonce) :
    serverAuth cluster server (answer cluster server.display client) =
      .ok { mac := some (signature
        (transcript "server" server.display client.display cluster)) } := by
  simp [serverAuth, answer, verify, signature, Tag.text, ensure, bind,
    Except.bind, pure, Except.pure]

theorem conclude_answer (implementation : Implementation)
    (cluster server : String) (client : Nonce) :
    conclude implementation cluster server client
        { mac := some (signature
          (transcript "server" server client.display cluster)) } =
      .ok () := by
  cases implementation with
  | daemon => simp [conclude, verify, signature, Tag.text]
  | sdk => simp [conclude, ensure, bind, Except.bind]

theorem authenticate_eq {clusters : List String} {network : Network}
    {index : Nat} {auth : Authentication} {cluster : String} {nonce : Nonce}
    {reply : Authenticated} (deliverable : network.Deliverable auth.mac)
    (found : network.servers[index]? = some ⟨cluster, nonce, .challenged⟩)
    (passed : serverAuth cluster nonce auth = .ok reply) :
    network.step clusters (.authenticate index auth) = some { network with
      servers := network.servers.set index
        ⟨cluster, nonce, .accepted auth.nonce⟩
      computed := .serverSide nonce auth.nonce cluster ::
        network.computed } := by
  simp only [step, if_pos deliverable, found, passed]

theorem confirm_eq {clusters : List String} {network : Network}
    {index : Nat} {accepted : Authenticated}
    {implementation : Implementation} {cluster server : String}
    {client : Nonce} (deliverable : network.Deliverable accepted.mac)
    (found : network.clients[index]? =
      some ⟨implementation, cluster, .answered server client⟩)
    (passed : conclude implementation cluster server client accepted =
      .ok ()) :
    network.step clusters (.confirm index accepted) = some { network with
      clients := network.clients.set index
        ⟨implementation, cluster, .connected server client⟩ } := by
  simp only [step, if_pos deliverable, found, passed]

def undisturbed (cluster : String) (server client : Nonce) :
    List NetworkEvent :=
  [.accept cluster server, .dial .sdk cluster,
    .challenge 0 (.text server.display) client,
    .authenticate 0 (answer cluster server.display client),
    .confirm 0 { mac := some (signature
      (transcript "server" server.display client.display cluster)) }]

theorem run_undisturbed {clusters : List String} {cluster : String}
    {server client : Nonce} (known : cluster ∈ clusters)
    (other : client ≠ server)
    (unguessed : ∀ nonce : Nonce, ∀ name ∈ clusters,
      ¬nonce.display.toList <:+: name.toList) :
    run (step clusters) {} (undisturbed cluster server client) =
      some {
        servers := [⟨cluster, server, .accepted client⟩]
        clients := [⟨.sdk, cluster, .connected server.display client⟩]
        computed := [.serverSide server client cluster,
          .clientSide server.display client cluster]
        nonces := [client, server] } := by
  have first : Fresh clusters {} server := ⟨nofun, unguessed server⟩
  have second : ∀ network : Network, network.nonces = [server] →
      network.Fresh clusters client := by
    intro network drawn
    refine ⟨?_, unguessed client⟩
    rw [drawn]
    exact mt List.mem_singleton.mp other
  let asked : Network :=
    { servers := [⟨cluster, server, .challenged⟩]
      clients := [⟨.sdk, cluster, .answered server.display client⟩]
      computed := [.clientSide server.display client cluster]
      nonces := [client, server] }
  let told : Network :=
    { servers := [⟨cluster, server, .accepted client⟩]
      clients := [⟨.sdk, cluster, .answered server.display client⟩]
      computed := [.serverSide server client cluster,
        .clientSide server.display client cluster]
      nonces := [client, server] }
  have answers : asked.Deliverable
      (answer cluster server.display client).mac := by
    intro text carried
    cases carried
    exact List.mem_cons_self
  have replies : told.Deliverable (some (signature
      (transcript "server" server.display client.display cluster))) := by
    intro text carried
    cases carried
    exact List.mem_cons_self
  have suited : (Challenge.text server.display).SuitedTo .sdk := trivial
  refine run_cons.mpr ⟨_, if_pos ⟨known, first⟩, run_cons.mpr ⟨_,
    if_pos known, run_cons.mpr ⟨asked, if_pos ⟨suited, second _ rfl⟩,
      run_cons.mpr ⟨told, ?_, run_cons.mpr ⟨_, ?_, rfl⟩⟩⟩⟩⟩
  · exact authenticate_eq answers rfl (serverAuth_answer _ _ _)
  · exact confirm_eq replies rfl (conclude_answer _ _ _ _)

theorem mutual_authentication_abc : ∃ final,
    run (step ["abc"]) {} (undisturbed "abc" 1 2) = some final ∧
      ⟨"abc", 1, .accepted 2⟩ ∈ final.servers ∧
      .clientSide (Nonce.display 1) 2 "abc" ∈ final.computed := by
  have long : ∀ nonce : Nonce, ∀ name ∈ ["abc"],
      ¬nonce.display.toList <:+: name.toList := by
    intro nonce name member inside
    have bound := inside.length_le
    rw [nonce.length_display, List.mem_singleton.mp member] at bound
    exact absurd bound (by decide)
  have ran := @run_undisturbed ["abc"] "abc" 1 2 List.mem_cons_self
    (by decide) long
  exact ⟨_, ran, List.mem_cons_self,
    (mutual_authentication ran).1 "abc" 1 2 List.mem_cons_self⟩

end Network

end TrainPool
