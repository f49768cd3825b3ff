import CompanyBackend.Library.Interleaving
import CompanyBackend.Signaling.State
import CompanyBackend.Signaling.Tokens

/-!
# The sockets of the signaling server

Each connection is served by its own `handle_socket`, which handles one frame after the other
until the client leaves or the stream ends, and then removes from the registry what it has
registered. What it has registered is remembered in one local variable, the last peer id, and
the registry knows connections only by the sender in the entries. Every access to the registry
runs under its lock, so a step of a connection handles a whole frame, or cleans up.

A frame of text comes with the answer of the rate limiter of its connection, the time at which
it is handled and the message that is read from it. The messages that are put into the channels
are recorded in the order in which they are sent.
-/

namespace Company

open SignalingState Function TokenLibrary

inductive InboundMessage where
  | register (peerId : String) (fileHashes : List String) (multiaddr : Option String)
      (token : String)
  | resolve (hash token : String)
  | signal (toPeerId payload token : String)
  | leave
deriving DecidableEq

inductive OutboundMessage where
  | registered (peerId : String)
  | resolved (hash peerId : String) (multiaddr : Option String)
  | notFound (hash : String)
  | signal (fromPeerId payload : String)
  | error (code : String)
  | peerLeft (peerId : String)
deriving DecidableEq

def OutboundMessage.isSignal : OutboundMessage → Bool
  | signal _ _ => true
  | _ => false

/-- What arrives on a socket. A text that is no message is malformed. -/
inductive Frame where
  | text (allowed : Bool) (now : Nat) (inbound : Option InboundMessage)
  | close
  | other
deriving DecidableEq

/-- A connection receives frames, then waits for the lock to clean up, and then
is closed. -/
inductive SocketPhase where
  | receiving
  | leaving
  | closed
deriving DecidableEq

/-- A connection: the sender of its channel, the frames that are still to come,
and the peer id of its last registration. -/
structure Socket (ι : Type) where
  tx : ι
  frames : List Frame
  peerId : Option String := none
  phase : SocketPhase := .receiving

/-- What the connections share: the registry, and the messages sent so far. -/
structure SignalingServer (ι : Type) where
  state : SignalingState ι := {}
  sent : List (ι × OutboundMessage) := []

abbrev SocketPool (ι : Type) := Pool ι (Socket ι) (SignalingServer ι)

def SignalingServer.send {ι : Type} (tx : ι) (message : OutboundMessage)
    (server : SignalingServer ι) : SignalingServer ι :=
  { server with sent := server.sent ++ [(tx, message)] }

theorem SignalingServer.mem_sent_send {ι : Type} {server : SignalingServer ι} {tx : ι}
    {message : OutboundMessage} {delivery : ι × OutboundMessage} :
    delivery ∈ (server.send tx message).sent ↔
      delivery ∈ server.sent ∨ delivery = (tx, message) := by
  rw [SignalingServer.send, List.mem_append, List.mem_singleton]

open Socket

namespace Socket

variable {ι Key : Type}

/-- Handle a message. Every message but the last carries a token, and acts as
its subject. -/
def handle (library : TokenLibrary Key) (now : Nat) (socket : Socket ι)
    (server : SignalingServer ι) : InboundMessage → Socket ι × SignalingServer ι
  | .register _ fileHashes multiaddr token =>
    match library.validateToken now token with
    | .error code => (socket, server.send socket.tx (.error code))
    | .ok sub =>
      match server.state.register ⟨sub, fileHashes, multiaddr, socket.tx⟩ with
      | (.error _, _) => (socket, server.send socket.tx (.error "CAPACITY_EXCEEDED"))
      | (.ok _, state) =>
        ({ socket with peerId := some sub }, { server with state }.send socket.tx (.registered sub))
  | .resolve hash token =>
    match library.validateToken now token with
    | .error code => (socket, server.send socket.tx (.error code))
    | .ok _ =>
      match server.state.resolve hash with
      | some entry =>
        (socket, server.send socket.tx (.resolved hash entry.peerId entry.multiaddr))
      | none => (socket, server.send socket.tx (.notFound hash))
  | .signal toPeerId payload token =>
    match library.validateToken now token with
    | .error code => (socket, server.send socket.tx (.error code))
    | .ok sub =>
      match server.state.getPeer toPeerId with
      | some target => (socket, server.send target.tx (.signal sub payload))
      | none => (socket, server.send socket.tx (.error "PEER_NOT_FOUND"))
  | .leave => ({ socket with phase := .leaving }, server)

def receive (library : TokenLibrary Key) (socket : Socket ι) (server : SignalingServer ι) :
    Frame → Socket ι × SignalingServer ι
  | .text false _ _ => (socket, server.send socket.tx (.error "RATE_LIMITED"))
  | .text true _ none => (socket, server.send socket.tx (.error "MALFORMED"))
  | .text true now (some inbound) => socket.handle library now server inbound
  | .close => ({ socket with phase := .leaving }, server)
  | .other => (socket, server)

/-- The cleanup after the last frame: the peer is removed, and the others are
told. -/
def cleanUp (socket : Socket ι) (server : SignalingServer ι) : Socket ι × SignalingServer ι :=
  match socket.peerId with
  | none => ({ socket with phase := .closed }, server)
  | some peerId =>
    let state := (server.state.remove peerId).2
    ({ socket with phase := .closed },
      { state
        sent := server.sent ++ state.peers.values.map fun entry => (entry.tx, .peerLeft peerId) })

/-- One step of `handle_socket`. -/
def next (library : TokenLibrary Key) (socket : Socket ι) (server : SignalingServer ι) :
    Socket ι × SignalingServer ι :=
  match socket.phase, socket.frames with
  | .receiving, [] => ({ socket with phase := .leaving }, server)
  | .receiving, frame :: frames => { socket with frames }.receive library server frame
  | .leaving, _ => socket.cleanUp server
  | .closed, _ => (socket, server)

/-- What a step of a connection can do. A message that is answered, and not
forwarded, is answered to its sender. -/
inductive Steps (library : TokenLibrary Key) (socket : Socket ι) (server : SignalingServer ι) :
    Socket ι → SignalingServer ι → Prop
  | rests (closed : socket.phase = .closed) : Steps library socket server socket server
  | ends (receives : socket.phase = .receiving) :
      Steps library socket server { socket with phase := .leaving } server
  | leaves {frame : Frame} {frames : List Frame} (receives : socket.phase = .receiving)
      (first : socket.frames = frame :: frames) :
      Steps library socket server { socket with frames, phase := .leaving } server
  | skips {frame : Frame} {frames : List Frame} (receives : socket.phase = .receiving)
      (first : socket.frames = frame :: frames) :
      Steps library socket server { socket with frames } server
  | replies {frame : Frame} {frames : List Frame} {reply : OutboundMessage}
      (receives : socket.phase = .receiving) (first : socket.frames = frame :: frames)
      (other : reply.isSignal = false) :
      Steps library socket server { socket with frames } (server.send socket.tx reply)
  | registers {claimed sub token : String} {fileHashes : List String}
      {multiaddr : Option String} {now : Nat} {frames : List Frame} {state : SignalingState ι}
      (receives : socket.phase = .receiving)
      (first : socket.frames =
        .text true now (some (.register claimed fileHashes multiaddr token)) :: frames)
      (validated : library.validateToken now token = .ok sub)
      (written : server.state.register ⟨sub, fileHashes, multiaddr, socket.tx⟩ = (.ok (), state)) :
      Steps library socket server { socket with frames, peerId := some sub }
        ({ server with state }.send socket.tx (.registered sub))
  | forwards {toPeerId payload sub token : String} {now : Nat} {frames : List Frame}
      {target : PeerEntry ι} (receives : socket.phase = .receiving)
      (first : socket.frames = .text true now (some (.signal toPeerId payload token)) :: frames)
      (validated : library.validateToken now token = .ok sub)
      (found : server.state.getPeer toPeerId = some target) :
      Steps library socket server { socket with frames }
        (server.send target.tx (.signal sub payload))
  | closes (left : socket.phase = .leaving) (free : socket.peerId = none) :
      Steps library socket server { socket with phase := .closed } server
  | cleansUp {peerId : String} (left : socket.phase = .leaving)
      (held : socket.peerId = some peerId) :
      Steps library socket server { socket with phase := .closed }
        { state := (server.state.remove peerId).2
          sent := server.sent ++ (server.state.remove peerId).2.peers.values.map fun entry =>
            (entry.tx, .peerLeft peerId) }

variable {library : TokenLibrary Key} {socket : Socket ι} {server : SignalingServer ι}

theorem handle_steps {now : Nat} {frames : List Frame} {inbound : InboundMessage}
    (receives : socket.phase = .receiving)
    (first : socket.frames = .text true now (some inbound) :: frames) :
    socket.Steps library server ({ socket with frames }.handle library now server inbound).1
      ({ socket with frames }.handle library now server inbound).2 := by
  cases inbound with
  | register claimed fileHashes multiaddr token =>
    unfold handle
    dsimp only
    split
    · exact .replies receives first rfl
    · rename_i sub validated
      split
      · exact .replies receives first rfl
      · rename_i written
        exact .registers receives first validated written
  | resolve hash token =>
    unfold handle
    dsimp only
    split
    · exact .replies receives first rfl
    · split
      · exact .replies receives first rfl
      · exact .replies receives first rfl
  | signal toPeerId payload token =>
    unfold handle
    dsimp only
    split
    · exact .replies receives first rfl
    · rename_i sub validated
      split
      · rename_i target found
        exact .forwards receives first validated found
      · exact .replies receives first rfl
  | leave => exact .leaves receives first

theorem next_steps (library : TokenLibrary Key) (socket : Socket ι) (server : SignalingServer ι) :
    socket.Steps library server (socket.next library server).1
      (socket.next library server).2 := by
  unfold next
  split
  · rename_i receives _
    exact .ends receives
  · rename_i frame frames receives first
    unfold receive
    split
    · exact .replies receives first rfl
    · exact .replies receives first rfl
    · exact handle_steps receives first
    · exact .leaves receives first
    · exact .skips receives first
  · rename_i left
    unfold cleanUp
    split
    · rename_i free
      exact .closes left free
    · rename_i peerId held
      exact .cleansUp left held
  · rename_i closed
    exact .rests closed

/-- The subject that a connection is about to register, if its next frame is a
registration with a valid token. -/
def registering (library : TokenLibrary Key) (socket : Socket ι) : Option String :=
  match socket.phase, socket.frames with
  | .receiving, .text true now (some (.register _ _ _ token)) :: _ =>
    (library.validateToken now token).toOption
  | _, _ => none

/-- The next frame of a connection is a registration with a valid token for the
entry. -/
def Submits (library : TokenLibrary Key) (socket : Socket ι) (entry : PeerEntry ι) : Prop :=
  ∃ claimed now token frames, socket.phase = .receiving ∧
    socket.frames =
      .text true now (some (.register claimed entry.fileHashes entry.multiaddr token)) :: frames ∧
    library.validateToken now token = .ok entry.peerId

/-- The peer id that a connection will remove when it closes. -/
def holding (socket : Socket ι) : Option String :=
  if socket.phase = .closed then none else socket.peerId

/-- A step leaves the registry alone, or it registers an entry with the sender
of the connection, or it removes the last peer of the connection, which then is
closed. -/
inductive Moves (library : TokenLibrary Key) (socket : Socket ι) (state : SignalingState ι) :
    Socket ι → SignalingState ι → Prop
  | stays {socket' : Socket ι} (same : socket'.tx = socket.tx)
      (holds : socket'.holding = socket.holding) : Moves library socket state socket' state
  | registers {socket' : Socket ι} {entry : PeerEntry ι} {state' : SignalingState ι}
      (submitted : socket.Submits library entry) (own : entry.tx = socket.tx)
      (written : state.register entry = (.ok (), state')) (same : socket'.tx = socket.tx)
      (holds : socket'.holding = some entry.peerId) : Moves library socket state socket' state'
  | cleansUp {socket' : Socket ι} {peerId : String} (leaves : socket.phase = .leaving)
      (held : socket.holding = some peerId) (same : socket'.tx = socket.tx)
      (holds : socket'.holding = none) :
      Moves library socket state socket' (state.remove peerId).2

theorem Submits.registering {entry : PeerEntry ι} (submitted : socket.Submits library entry) :
    socket.registering library = some entry.peerId := by
  obtain ⟨claimed, now, token, frames, receives, first, validated⟩ := submitted
  simp only [Socket.registering, receives, first, validated]
  rfl

variable {socket' : Socket ι}

theorem Moves.tx_eq {state state' : SignalingState ι}
    (moved : socket.Moves library state socket' state') : socket'.tx = socket.tx := by
  cases moved with
  | stays same | registers _ _ _ same | cleansUp _ _ same => exact same

theorem holding_of_open (isOpen : socket.phase ≠ .closed) : socket.holding = socket.peerId :=
  if_neg isOpen

theorem Steps.moves {server' : SignalingServer ι}
    (steps : socket.Steps library server socket' server') :
    socket.Moves library server.state socket' server'.state := by
  have receiving : socket.phase = .receiving → socket.holding = socket.peerId := by
    intro receives
    exact holding_of_open (by rw [receives]; nofun)
  have leaving : socket.phase = .leaving → socket.holding = socket.peerId := by
    intro left
    exact holding_of_open (by rw [left]; nofun)
  cases steps with
  | rests | skips | replies | forwards => exact .stays rfl rfl
  | ends receives | leaves receives => exact .stays rfl (receiving receives).symm
  | registers receives first validated written =>
    refine .registers ⟨_, _, _, _, receives, first, validated⟩ rfl written rfl ?_
    exact holding_of_open (by dsimp only; rw [receives]; nofun)
  | closes left free => exact .stays rfl ((leaving left).trans free).symm
  | cleansUp left held => exact .cleansUp left ((leaving left).trans held) rfl rfl

theorem next_moves (library : TokenLibrary Key) (socket : Socket ι) (server : SignalingServer ι) :
    socket.Moves library server.state (socket.next library server).1
      (socket.next library server).2.state :=
  (next_steps library socket server).moves

end Socket

/-! ### Two maps that are inverse to each other -/

section Paired

variable {K ι : Type} [DecidableEq K] [DecidableEq ι] {owner : K → Option ι}
variable {owned : ι → Option K} {key : K} {i : ι}

/-- A key has an owner exactly if that owner owns this key. -/
def Paired (owner : K → Option ι) (owned : ι → Option K) : Prop :=
  ∀ key i, owner key = some i ↔ owned i = some key

/-- A key without another owner is given to someone who owns nothing else. -/
theorem Paired.assign (paired : Paired owner owned) (free : ∀ other, owned i = some other →
    other = key) (unowned : ∀ j, owner key = some j → j = i) :
    Paired (update owner key (some i)) (update owned i (some key)) := by
  intro other j
  by_cases sameKey : other = key <;> by_cases sameOwner : j = i
  · simp [sameKey, sameOwner]
  · rw [sameKey, update_self, update_of_ne sameOwner, ← paired]
    constructor
    · intro same
      exact absurd (Option.some.inj same).symm sameOwner
    · intro held
      exact absurd (unowned j held) sameOwner
  · rw [sameOwner, update_self, update_of_ne sameKey, paired]
    constructor
    · intro held
      exact absurd (free other held) sameKey
    · intro same
      exact absurd (Option.some.inj same).symm sameKey
  · rw [update_of_ne sameKey, update_of_ne sameOwner]
    exact paired other j

theorem Paired.release (paired : Paired owner owned) (held : owned i = some key) :
    Paired (update owner key none) (update owned i none) := by
  have mine : owner key = some i := (paired key i).mpr held
  intro other j
  by_cases sameKey : other = key <;> by_cases sameOwner : j = i
  · simp [sameKey, sameOwner]
  · rw [sameKey, update_self, update_of_ne sameOwner, ← paired, mine]
    simp [Ne.symm sameOwner]
  · rw [sameOwner, update_self, update_of_ne sameKey, paired, held]
    simp [Ne.symm sameKey]
  · rw [update_of_ne sameKey, update_of_ne sameOwner]
    exact paired other j

end Paired

def SignalingState.sender {Tx : Type} (state : SignalingState Tx) (id : String) : Option Tx :=
  (state.peers.lookup id).map PeerEntry.tx

variable {Tx : Type}

theorem SignalingState.sender_eq_some_iff {state : SignalingState Tx} {id : String}
    {tx : Tx} : state.sender id = some tx ↔ ∃ entry, state.peers.lookup id = some entry ∧
      entry.tx = tx :=
  Option.map_eq_some_iff

theorem SignalingState.sender_of_register_ok {state state' : SignalingState Tx}
    {entry : PeerEntry Tx} (accepted : state.register entry = (.ok (), state')) :
    state'.sender = update state.sender entry.peerId (some entry.tx) := by
  funext id
  rw [sender, peers_of_register_ok accepted]
  by_cases same : id = entry.peerId
  · rw [same, HashMap.lookup_put, update_self]
    rfl
  · rw [HashMap.lookup_put_ne _ same, update_of_ne same]
    rfl

theorem SignalingState.sender_remove (state : SignalingState Tx) (peerId : String) :
    (state.remove peerId).2.sender = update state.sender peerId none := by
  funext id
  change ((state.peers.erase peerId).lookup id).map PeerEntry.tx = _
  by_cases same : id = peerId
  · rw [same, AList.lookup_erase, update_self]
    rfl
  · rw [AList.lookup_erase_ne same, update_of_ne same]
    rfl

section Ownership

variable {ι Key : Type} [DecidableEq ι] {library : TokenLibrary Key}
variable {start pool : SocketPool ι} {i : ι}

/-- Connections before their first frame, at a server without peers. -/
structure Opened (start : SocketPool ι) : Prop where
  sockets : ∀ i, ∃ frames, start.calls i = { tx := i, frames }
  empty : start.store = {}

/-- A connection registers no second subject, and none that another connection
holds. -/
def RegistersApart (library : TokenLibrary Key) (pool : SocketPool ι) (i : ι) : Prop :=
  ∀ sub ∈ (pool.calls i).registering library,
    (∀ other ∈ (pool.calls i).peerId, other = sub) ∧
      ∀ entry ∈ pool.store.state.peers.lookup sub, entry.tx = i

instance decidableRegistersApart (library : TokenLibrary Key) (pool : SocketPool ι) (i : ι) :
    Decidable (RegistersApart library pool i) :=
  inferInstanceAs (Decidable (∀ sub ∈ (pool.calls i).registering library, _ ∧ _))

/-- The entries and the open connections belong to each other. -/
structure Owned (pool : SocketPool ι) : Prop where
  named : ∀ i, (pool.calls i).tx = i
  paired : Paired pool.store.state.sender fun i => (pool.calls i).holding

omit [DecidableEq ι] in
theorem Opened.owned (opened : Opened start) : Owned start := by
  refine ⟨?_, ?_⟩
  · intro i
    obtain ⟨frames, fresh⟩ := opened.sockets i
    rw [fresh]
  · intro id i
    obtain ⟨frames, fresh⟩ := opened.sockets i
    dsimp only
    rw [fresh, opened.empty]
    constructor
    · nofun
    · nofun

theorem Owned.step (owned : Owned pool) (apart : RegistersApart library pool i) :
    Owned (pool.step (next library) i) := by
  have moved := next_moves library (pool.calls i) pool.store
  have kept : (pool.step (next library) i).store.state =
      ((pool.calls i).next library pool.store).2.state := rfl
  constructor
  · apply Pool.forall_step (P := fun j (socket : Socket ι) => socket.tx = j)
    · exact moved.tx_eq.trans (owned.named i)
    · intro j _
      exact owned.named j
  · rw [Pool.map_calls_step, kept]
    generalize ((pool.calls i).next library pool.store).2.state = state' at moved
    generalize ((pool.calls i).next library pool.store).1 = socket' at moved ⊢
    cases moved with
    | stays _ holds =>
      rw [holds, update_eq_self]
      exact owned.paired
    | registers submitted own written _ holds =>
      obtain ⟨single, unowned⟩ := apart _ submitted.registering
      rw [holds, sender_of_register_ok written, own, owned.named i]
      apply owned.paired.assign
      · intro other held
        apply single
        unfold holding at held
        split at held
        · cases held
        · exact held
      · intro j sent
        obtain ⟨entry, stored, rfl⟩ := sender_eq_some_iff.mp sent
        exact unowned entry stored
    | cleansUp _ held _ holds =>
      rw [holds, sender_remove]
      exact owned.paired.release held

/-- In every interleaving in which no connection registers a second subject or
one that another connection holds, every entry carries the sender of an open
connection, and a connection that closes removes no entry of another one. -/
theorem signaling_connection_ownership (opened : Opened start)
    (reached : Pool.Reaches (Socket.next library) (RegistersApart library) start pool) :
    (∀ id entry, pool.store.state.peers.lookup id = some entry →
      (pool.calls entry.tx).phase ≠ .closed) ∧
    ∀ i id entry, (pool.calls i).phase = .leaving →
      pool.store.state.peers.lookup id = some entry → entry.tx ≠ i →
        (pool.step (Socket.next library) i).store.state.peers.lookup id = some entry := by
  have owned : Owned pool := reached.invariant opened.owned fun _ _ before => before.step
  have holds : ∀ id entry, pool.store.state.peers.lookup id = some entry →
      (pool.calls entry.tx).holding = some id := by
    intro id entry stored
    exact (owned.paired id entry.tx).mp (sender_eq_some_iff.mpr ⟨entry, stored, rfl⟩)
  constructor
  · intro id entry stored closed
    have held := holds id entry stored
    rw [holding, if_pos closed] at held
    cases held
  · intro i id entry leaves stored other
    have moved := next_moves library (pool.calls i) pool.store
    change ((pool.calls i).next library pool.store).2.state.peers.lookup id = some entry
    generalize ((pool.calls i).next library pool.store).2.state = state' at moved ⊢
    cases moved with
    | stays => exact stored
    | registers submitted =>
      obtain ⟨_, _, _, _, receives, _⟩ := submitted
      rw [leaves] at receives
      cases receives
    | @cleansUp peerId _ held =>
      -- The entry is held by another connection, so it is not the one that is removed.
      have apart : id ≠ peerId := by
        rintro rfl
        have sent := (owned.paired id i).mpr held
        obtain ⟨mine, found, own⟩ := sender_eq_some_iff.mp sent
        rw [stored] at found
        cases found
        exact other own
      exact (AList.lookup_erase_ne apart).trans stored

end Ownership

/-- Two connections that register with one token after the other, and whose
streams then end. -/
def twoConnections (first second : List String) : SocketPool (Fin 2) where
  calls i :=
    { tx := i
      frames := (if i = 0 then first else second).map fun token =>
        .text true 0 (some (.register "" ["hash"] none token)) }
  store := {}

theorem twoConnections_opened (first second : List String) : Opened (twoConnections first second) :=
  ⟨fun _ => ⟨_, rfl⟩, rfl⟩

/-- Two connections register under different subjects, and the stream of the
first one ends. -/
def twoSubjects : SocketPool (Fin 2) :=
  (twoConnections ["header0.alice.signature0"] ["header1.bob.signature1"]).run
    (Socket.next twoKeys) [0, 1, 0]

theorem signaling_connection_ownership_two_subjects :
    (twoSubjects.step (Socket.next TokenLibrary.twoKeys) 0).store.state.peers.lookup "bob" =
      some ⟨"bob", ["hash"], none, 1⟩ := by
  have reached : Pool.Reaches (next twoKeys)
      (RegistersApart twoKeys)
      (twoConnections ["header0.alice.signature0"] ["header1.bob.signature1"]) twoSubjects :=
    Pool.reaches_run (by decide +kernel)
  have stored : twoSubjects.store.state.peers.lookup "bob" = some ⟨"bob", ["hash"], none, 1⟩ := by
    decide +kernel
  exact (signaling_connection_ownership (twoConnections_opened _ _) reached).2 0 "bob" _
    (by decide +kernel) stored (by decide)

/-- A connection that has registered two subjects closes and leaves the first
one behind. And of two connections that have registered one subject, the one
that closes removes the entry of the other. -/
theorem closed_connection_entries :
    (∃ pool id entry,
      Pool.Reaches (Socket.next TokenLibrary.twoKeys) (fun _ _ => True)
        (twoConnections ["header0.alice.signature0", "header0.bob.signature0"] []) pool ∧
      pool.store.state.peers.lookup id = some entry ∧ (pool.calls entry.tx).phase = .closed) ∧
    ∃ pool i id entry,
      Pool.Reaches (Socket.next TokenLibrary.twoKeys) (fun _ _ => True)
        (twoConnections ["header0.alice.signature0"] ["header0.alice.signature0"]) pool ∧
      (pool.calls i).phase = .leaving ∧ pool.store.state.peers.lookup id = some entry ∧
      entry.tx ≠ i ∧ (pool.calls entry.tx).phase = .receiving ∧
      (pool.step (Socket.next TokenLibrary.twoKeys) i).store.state.peers.lookup id = none := by
  constructor
  · refine ⟨Pool.run (next twoKeys) (twoConnections _ _) [0, 0, 0, 0],
      "alice", ⟨"alice", ["hash"], none, 0⟩, Pool.reaches_run (Pool.admits_any _), ?_⟩
    decide +kernel
  · refine ⟨Pool.run (next twoKeys) (twoConnections _ _) [0, 1, 0], 0,
      "alice", ⟨"alice", ["hash"], none, 1⟩, Pool.reaches_run (Pool.admits_any _), ?_⟩
    decide +kernel

end Company
