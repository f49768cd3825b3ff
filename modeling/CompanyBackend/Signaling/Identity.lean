import CompanyBackend.Signaling.Sockets

/-!
# Who speaks for a peer

A message is accepted as a peer if it carries a token that validates with this peer as its
subject. Registrations and forwarded signals are traced back to such messages here, through
all interleavings of the connections. The token of a message was signed with the key in its
own header, and nothing ties that key to the subject: whether two messages that are accepted
as one peer come from holders of one key is decided by what their senders put in.
-/

namespace Company

def InboundMessage.token : InboundMessage → Option String
  | register _ _ _ token => some token
  | resolve _ token => some token
  | signal _ _ token => some token
  | leave => none

namespace Socket

variable {ι Key : Type} {library : TokenLibrary Key} {socket socket' : Socket ι}
variable {server server' : SignalingServer ι}

/-- Among the frames is a message that is accepted as the subject. -/
def Presents (library : TokenLibrary Key) (frames : List Frame) (token subject : String) : Prop :=
  ∃ now inbound, .text true now (some inbound) ∈ frames ∧ inbound.token = some token ∧
    library.validateToken now token = .ok subject

/-- Among the frames is a message that is accepted as the peer and registers the
entry. -/
def Registers (library : TokenLibrary Key) (frames : List Frame) (token : String)
    (entry : PeerEntry ι) : Prop :=
  ∃ claimed now,
    .text true now (some (.register claimed entry.fileHashes entry.multiaddr token)) ∈ frames ∧
    library.validateToken now token = .ok entry.peerId

theorem Submits.registers {entry : PeerEntry ι} (submitted : socket.Submits library entry) :
    ∃ token, Registers library socket.frames token entry := by
  obtain ⟨claimed, now, token, frames, _, first, validated⟩ := submitted
  refine ⟨token, claimed, now, ?_, validated⟩
  rw [first]
  exact List.mem_cons_self

theorem Steps.frames_subset (steps : socket.Steps library server socket' server') :
    socket'.frames ⊆ socket.frames := by
  have rest : ∀ {frame : Frame} {frames : List Frame}, socket.frames = frame :: frames →
      frames ⊆ socket.frames := by
    intro frame frames first
    rw [first]
    exact List.subset_cons_self ..
  cases steps with
  | rests | ends | closes | cleansUp => exact List.Subset.refl _
  | leaves _ first | skips _ first | replies _ first | registers _ first
  | forwards _ first => exact rest first

variable {fromPeerId payload : String}

/-- A reply that is no signal adds no signal. -/
theorem of_signal_sent_reply {tx receiver : ι}
    {reply : OutboundMessage} (other : reply.isSignal = false)
    (sent : (tx, .signal fromPeerId payload) ∈ (server.send receiver reply).sent) :
    (tx, .signal fromPeerId payload) ∈ server.sent := by
  obtain before | same := SignalingServer.mem_sent_send.mp sent
  · exact before
  · cases same
    cases other

/-- A signal is forwarded under the subject of the token that came with it. -/
theorem Steps.of_signal_sent (steps : socket.Steps library server socket' server') {tx : ι}
    (sent : (tx, .signal fromPeerId payload) ∈ server'.sent) :
    (tx, .signal fromPeerId payload) ∈ server.sent ∨
      ∃ token, Presents library socket.frames token fromPeerId := by
  cases steps with
  | rests => exact .inl sent
  | ends => exact .inl sent
  | leaves => exact .inl sent
  | skips => exact .inl sent
  | replies _ _ other => exact .inl (of_signal_sent_reply other sent)
  | registers => exact .inl (of_signal_sent_reply rfl sent)
  | @forwards toPeerId _ _ token now _ _ _ first validated =>
    obtain before | same := SignalingServer.mem_sent_send.mp sent
    · exact .inl before
    · cases same
      refine .inr ⟨token, now, .signal toPeerId payload token, ?_, rfl, validated⟩
      rw [first]
      exact List.mem_cons_self
  | closes => exact .inl sent
  | cleansUp =>
    obtain before | told := List.mem_append.mp sent
    · exact .inl before
    · obtain ⟨_, _, ⟨⟩⟩ := List.mem_map.mp told

end Socket

open Socket

section Vouching

variable {ι Key : Type} [DecidableEq ι] {library : TokenLibrary Key}
variable {start pool : SocketPool ι} {i : ι}
variable {condition : SocketPool ι → ι → Prop}

/-- What is registered and what is forwarded goes back to a message that the
connections had to send from the start. -/
structure Vouched (library : TokenLibrary Key) (start pool : SocketPool ι) : Prop where
  named : ∀ i, (pool.calls i).tx = i
  frames : ∀ i, (pool.calls i).frames ⊆ (start.calls i).frames
  entries : ∀ id entry, pool.store.state.peers.lookup id = some entry →
    entry.peerId = id ∧ ∃ token, Socket.Registers library (start.calls entry.tx).frames token entry
  signals : ∀ tx fromPeerId payload, (tx, .signal fromPeerId payload) ∈ pool.store.sent →
    ∃ i token, Socket.Presents library (start.calls i).frames token fromPeerId

omit [DecidableEq ι] in
theorem Opened.vouched (opened : Opened start) : Vouched library start start := by
  refine ⟨opened.owned.named, fun i => List.Subset.refl _, ?_, ?_⟩
  · intro id entry stored
    rw [opened.empty] at stored
    cases stored
  · intro tx fromPeerId payload sent
    rw [opened.empty] at sent
    cases sent

theorem Vouched.entries_step (vouched : Vouched library start pool) (i : ι) (id : String)
    (entry : PeerEntry ι)
    (stored : (pool.step (next library) i).store.state.peers.lookup id = some entry) :
    entry.peerId = id ∧
      ∃ token, Registers library (start.calls entry.tx).frames token entry := by
  have moved := next_moves library (pool.calls i) pool.store
  change ((pool.calls i).next library pool.store).2.state.peers.lookup id = some entry at stored
  generalize ((pool.calls i).next library pool.store).2.state = state' at moved stored
  cases moved with
  | stays => exact vouched.entries id entry stored
  | @registers new _ submitted own written =>
    rw [SignalingState.peers_of_register_ok written] at stored
    refine HashMap.forall_put (P := fun id entry => entry.peerId = id ∧
      ∃ token, Registers library (start.calls entry.tx).frames token entry)
      vouched.entries ⟨rfl, ?_⟩ id entry stored
    obtain ⟨token, claimed, now, listed, validated⟩ := submitted.registers
    rw [own, vouched.named i]
    exact ⟨token, claimed, now, vouched.frames i listed, validated⟩
  | cleansUp =>
    exact HashMap.forall_erase (P := fun id entry => entry.peerId = id ∧
      ∃ token, Registers library (start.calls entry.tx).frames token entry)
      vouched.entries id entry stored

theorem Vouched.step (vouched : Vouched library start pool) (i : ι) :
    Vouched library start (pool.step (next library) i) := by
  refine ⟨?_, ?_, vouched.entries_step i, ?_⟩
  · apply Pool.forall_step (P := fun j (socket : Socket ι) => socket.tx = j)
    · have moved := next_moves library (pool.calls i) pool.store
      exact moved.tx_eq.trans (vouched.named i)
    · intro j _
      exact vouched.named j
  · apply Pool.forall_step
      (P := fun j (socket : Socket ι) => socket.frames ⊆ (start.calls j).frames)
    · have steps := next_steps library (pool.calls i) pool.store
      exact List.Subset.trans steps.frames_subset (vouched.frames i)
    · intro j _
      exact vouched.frames j
  · intro tx fromPeerId payload sent
    have steps := next_steps library (pool.calls i) pool.store
    obtain before | ⟨token, now, inbound, listed, carried⟩ := steps.of_signal_sent sent
    · exact vouched.signals tx fromPeerId payload before
    · exact ⟨i, token, now, inbound, vouched.frames i listed, carried⟩

/-- Two accepted tokens for one subject were signed with the same key exactly if
they carry the same key in their headers. So a message that is accepted as a
registered peer was signed with the key of its current registration exactly if
it carries that key; and every signal that is forwarded from a peer came in such
a message. -/
theorem signaling_identity {signedBy : String → List UInt8 → Option Key}
    (unforgeable : library.Unforgeable signedBy) (opened : Opened start)
    (reached : Pool.Reaches (Socket.next library) condition start pool) :
    (∀ first second now now' subject, library.validateToken now first = .ok subject →
      library.validateToken now' second = .ok subject →
        (library.tokenSigner signedBy first = library.tokenSigner signedBy second ↔
          library.tokenKey first = library.tokenKey second)) ∧
    (∀ id entry, pool.store.state.peers.lookup id = some entry →
      ∃ registration, Socket.Registers library (start.calls entry.tx).frames registration entry ∧
        ∀ i token, Socket.Presents library (start.calls i).frames token id →
          (library.tokenSigner signedBy token = library.tokenSigner signedBy registration ↔
            library.tokenKey token = library.tokenKey registration)) ∧
    ∀ tx fromPeerId payload, (tx, .signal fromPeerId payload) ∈ pool.store.sent →
      ∃ i token, Socket.Presents library (start.calls i).frames token fromPeerId := by
  have vouched : Vouched library start pool :=
    reached.invariant opened.vouched fun _ i before _ => before.step i
  refine ⟨?_, ?_, vouched.signals⟩
  · intro first second now now' subject accepted accepted'
    exact unforgeable.same_signer_iff accepted accepted'
  · intro id entry stored
    obtain ⟨rfl, registration, registers⟩ := vouched.entries id entry stored
    refine ⟨registration, registers, ?_⟩
    rintro i token ⟨now, inbound, _, _, accepted⟩
    obtain ⟨_, now', _, accepted'⟩ := registers
    exact unforgeable.same_signer_iff accepted accepted'

end Vouching

open TokenLibrary in
/-- A peer reconnects with the token that it has registered with. -/
theorem signaling_identity_reconnection :
    ∃ registration,
      Socket.Registers twoKeys ((twoConnections ["header0.alice.signature0"]
        ["header0.alice.signature0"]).calls 1).frames registration
          (⟨"alice", ["hash"], none, 1⟩ : PeerEntry (Fin 2)) ∧
      ∀ i token,
        Socket.Presents twoKeys ((twoConnections ["header0.alice.signature0"]
          ["header0.alice.signature0"]).calls i).frames token "alice" →
        (twoKeys.tokenSigner twoSigners token = twoKeys.tokenSigner twoSigners registration ↔
          twoKeys.tokenKey token = twoKeys.tokenKey registration) := by
  have reached : Pool.Reaches (next twoKeys) (fun _ _ => True)
      (twoConnections ["header0.alice.signature0"] ["header0.alice.signature0"])
      (Pool.run (next twoKeys) (twoConnections _ _) [0, 1]) :=
    Pool.reaches_run (Pool.admits_any _)
  exact (signaling_identity twoKeys_unforgeable (twoConnections_opened _ _) reached).2.1
    "alice" _ (by decide +kernel)

open TokenLibrary in
/-- The holder of another key signs a token for the subject of a registered
peer, and takes over its registration. -/
theorem registration_taken_over :
    ∃ pool, twoKeys.Unforgeable twoSigners ∧
      Opened (twoConnections ["header0.alice.signature0"] ["header1.alice.signature1"]) ∧
      Pool.Reaches (Socket.next twoKeys) (fun _ _ => True)
        (twoConnections ["header0.alice.signature0"] ["header1.alice.signature1"]) pool ∧
      twoKeys.validateToken 0 "header0.alice.signature0" = .ok "alice" ∧
      twoKeys.validateToken 0 "header1.alice.signature1" = .ok "alice" ∧
      twoKeys.tokenSigner twoSigners "header0.alice.signature0" = some false ∧
      twoKeys.tokenSigner twoSigners "header1.alice.signature1" = some true ∧
      pool.store.state.peers.lookup "alice" = some ⟨"alice", ["hash"], none, 1⟩ := by
  refine ⟨Pool.run (next twoKeys) (twoConnections _ _) [0, 1], twoKeys_unforgeable,
    twoConnections_opened _ _, Pool.reaches_run (Pool.admits_any _), rfl, rfl, ?_⟩
  decide +kernel

end Company
