import CompanyBackend.Voice.Calls

/-!
# Moves between the channels of a server

A voice node reports that a user has joined a room and that a user has left one. When a user
moves to another channel of the same server, both are reported, and the reports of two rooms may
arrive in either order.

Membership is kept for each channel, and so it survives every order. The other keys of a
connection are shared by the channels of a server. Whatever channel is left, they are deleted;
whatever channel is joined, they are written. So what is left in the end depends on the kind of
the last report alone.
-/

namespace Company

open Request List VoiceRedis

inductive CallEvent where
  | joined (channel : String) (createdAt : Timestamp)
  | left (channel : String)
  deriving DecidableEq, Repr

namespace CallEvent

def channel : CallEvent → String
  | joined channel _ => channel
  | left channel => channel

def handle (user : String) : CallEvent → Task Unit
  | joined channel createdAt => participantJoined channel user createdAt
  | left channel => participantLeft channel user

def track (entered : List String) : CallEvent → List String
  | joined channel _ => channel :: entered
  | left channel => entered.filter (· ≠ channel)

/-- One channel is joined, and a second one during a move. -/
def follows (entered : List String) : CallEvent → Bool
  | joined channel _ => decide (entered.length ≤ 1) && !entered.contains channel
  | left channel => entered.contains channel

/-- Reports as they may arrive, in whatever order those of a move come. -/
def inOrder (entered : List String) : List CallEvent → Bool
  | [] => true
  | event :: events => event.follows entered && inOrder (event.track entered) events

end CallEvent

def handleEvents (user : String) (events : List CallEvent) (backend : Backend) : Backend :=
  events.foldl (fun backend event => (event.handle user backend).2) backend

def enteredChannels (events : List CallEvent) : List String := events.foldl CallEvent.track []

/-- What the backend should know about the calls of a user in a server. -/
structure Backend.KeepsCalls (backend : Backend) (user server : String) (entered : List String) :
    Prop where
  members : ∀ channel ∈ entered, user ∈ backend.voice.members channel
  states : ∀ channel ∈ entered, (backend.voice.getVoiceState channel (some server) user).isSome
  current : entered ≠ [] →
    ∃ channel ∈ entered, backend.voice.getUserVoiceChannelInServer user server = some channel

variable {backend : Backend}

theorem Backend.KeepsCalls.nothing {user server : String} : backend.KeepsCalls user server [] :=
  ⟨by simp, by simp, fun nonempty => absurd rfl nonempty⟩

/-- The user is a participant of a channel of the server. -/
structure Backend.Participates (backend : Backend) (user server channel : String) : Prop where
  located : ∃ document, backend.db.channels.find channel = some document ∧
    document.server = some server
  participant : backend.voice.getVoiceConnectionType channel user ≠ some .viewer

variable {channel : String} {entered : List String}

section Reports

variable {user server : String} {createdAt : Timestamp}

theorem CallEvent.handle_joined (participates : backend.Participates user server channel) :
    ((joined channel createdAt).handle user backend).2 =
      { backend with
        voice := (backend.voice.createVoiceState channel (some server) user
          createdAt).takeUserMovedToVoice channel user } := by
  obtain ⟨document, found, ofServer⟩ := participates.located
  rw [handle, participantJoined, bind_of_ok (Task.fetch_run (orNotFound_eq_ok.mpr found)),
    bind_of_ok (Task.readVoice_run _ backend), if_neg participates.participant, ofServer]
  rfl

theorem CallEvent.handle_left (participates : backend.Participates user server channel) :
    ((left channel).handle user backend).2 =
      { backend with
        voice := ((backend.voice.deleteVoiceState channel (some server)
          user).deleteVoiceConnectionType channel user).takeUserMovedFromVoice channel user } := by
  obtain ⟨document, found, ofServer⟩ := participates.located
  rw [handle, participantLeft, bind_of_ok (Task.fetch_run (orNotFound_eq_ok.mpr found)),
    bind_of_ok (Task.readVoice_run _ backend), if_neg participates.participant, ofServer]
  rfl

variable {event : CallEvent}

/-- No report changes a channel, or makes a viewer of a participant. -/
theorem CallEvent.handle_participates {other : String}
    (participates : backend.Participates user server event.channel)
    (participates' : backend.Participates user server other) :
    (event.handle user backend).2.Participates user server other := by
  cases event with
  | joined channel createdAt =>
    change backend.Participates user server channel at participates
    rw [handle_joined participates]
    exact ⟨participates'.located, participates'.participant⟩
  | left channel =>
    change backend.Participates user server channel at participates
    rw [handle_left participates]
    refine ⟨participates'.located, ?_⟩
    change ((backend.voice.deleteVoiceState channel (some server)
      user).deleteVoiceConnectionType channel user).getVoiceConnectionType other user ≠ _
    rw [getVoiceConnectionType_deleteVoiceConnectionType, getVoiceConnectionType_deleteVoiceState]
    split
    · exact (Option.some_ne_none _).symm
    · exact participates'.participant

/-- Joining adds to one set of members, and leaving takes from one. -/
theorem CallEvent.handle_members (participates : backend.Participates user server event.channel)
    (members : ∀ channel ∈ entered, user ∈ backend.voice.members channel) :
    ∀ channel ∈ event.track entered, user ∈ (event.handle user backend).2.voice.members
      channel := by
  intro other present
  cases event with
  | joined channel createdAt =>
    change backend.Participates user server channel at participates
    rw [handle_joined participates]
    change user ∈ (backend.voice.createVoiceState channel (some server) user createdAt).members
      other
    rw [mem_members_createVoiceState]
    rcases mem_cons.mp present with rfl | earlier
    · exact .inl ⟨rfl, rfl⟩
    · exact .inr (members other earlier)
  | left channel =>
    obtain ⟨earlier, ne⟩ := mem_filter.mp present
    change backend.Participates user server channel at participates
    rw [handle_left participates]
    change user ∈ (backend.voice.deleteVoiceState channel (some server) user).members other
    rw [mem_members_deleteVoiceState]
    refine ⟨members other earlier, ?_⟩
    rintro ⟨rfl, _⟩
    exact of_decide_eq_true ne rfl

end Reports

section Runs

variable {user server : String} {events : List CallEvent}

section

variable (participates : ∀ event ∈ events, backend.Participates user server event.channel)

include participates

/-- Membership survives every order of the reports. -/
theorem handleEvents_members (members : ∀ channel ∈ entered, user ∈ backend.voice.members channel) :
    ∀ channel ∈ events.foldl CallEvent.track entered,
      user ∈ (handleEvents user events backend).voice.members channel := by
  induction events generalizing backend entered with
  | nil => exact members
  | cons event events ih =>
    have first := participates event mem_cons_self
    refine ih ?_ (event.handle_members first members)
    intro later listed
    exact event.handle_participates first (participates later (mem_cons_of_mem _ listed))

theorem handleEvents_participates (held : backend.Participates user server channel) :
    (handleEvents user events backend).Participates user server channel := by
  induction events generalizing backend with
  | nil => exact held
  | cons event events ih =>
    have first := participates event mem_cons_self
    refine ih ?_ (event.handle_participates first held)
    intro later listed
    exact event.handle_participates first (participates later (mem_cons_of_mem _ listed))

end

theorem handleEvents_concat (event : CallEvent) :
    handleEvents user (events ++ [event]) backend =
      (event.handle user (handleEvents user events backend)).2 :=
  foldl_concat ..

theorem enteredChannels_concat (event : CallEvent) :
    enteredChannels (events ++ [event]) = event.track (enteredChannels events) :=
  foldl_concat ..

/-- The last report is about a channel that has been joined. -/
def EndsWithJoin (events : List CallEvent) : Prop :=
  ∃ channel createdAt, events.getLast? = some (.joined channel createdAt)

/-- Whatever the order of the reports, the calls of the user are known exactly
if the last report is not the leave of one channel while another one is still
joined. -/
theorem voiceMoves_keep_state_iff
    (participates : ∀ event ∈ events, backend.Participates user server event.channel) :
    (handleEvents user events backend).KeepsCalls user server (enteredChannels events) ↔
      enteredChannels events = [] ∨ EndsWithJoin events := by
  have members : ∀ channel ∈ enteredChannels events,
      user ∈ (handleEvents user events backend).voice.members channel :=
    handleEvents_members participates (by simp)
  rcases eq_nil_or_concat' events with rfl | ⟨earlier, last, rfl⟩
  · exact ⟨fun _ => .inl rfl, fun _ => .nothing⟩
  · have before : (handleEvents user earlier backend).Participates user server last.channel :=
      handleEvents_participates (fun event listed => participates event (mem_append_left _ listed))
        (participates last (by simp))
    rw [enteredChannels_concat, handleEvents_concat] at members ⊢
    cases last with
    | joined channel createdAt =>
      -- The keys have just been written, for all channels of the server.
      refine ⟨fun _ => .inr ⟨channel, createdAt, List.getLast?_concat⟩, fun _ => ?_⟩
      change (handleEvents user earlier backend).Participates user server channel at before
      rw [CallEvent.handle_joined before] at members ⊢
      have connected := @connected_createVoiceState
        (handleEvents user earlier backend).voice channel user (some server) createdAt
      refine ⟨members, ?_, fun _ => ⟨channel, mem_cons_self, connected.current⟩⟩
      intro other _
      exact connected.getVoiceState
    | left channel =>
      have noJoin : ¬EndsWithJoin (earlier ++ [CallEvent.left channel]) := by
        rintro ⟨_, _, last⟩
        rw [List.getLast?_concat] at last
        cases last
      rw [or_iff_left noJoin]
      change (handleEvents user earlier backend).Participates user server channel at before
      rw [CallEvent.handle_left before] at members ⊢
      have disconnected := @disconnected_deleteVoiceState
        (handleEvents user earlier backend).voice channel user (some server)
      constructor
      · intro keeps
        by_contra nonempty
        obtain ⟨other, present⟩ := exists_mem_of_ne_nil _ nonempty
        have lost : ((handleEvents user earlier backend).voice.deleteVoiceState channel
            (some server) user).getVoiceState other (some server) user = none :=
          disconnected.getVoiceState
        have known : (((handleEvents user earlier backend).voice.deleteVoiceState channel
            (some server) user).getVoiceState other (some server) user).isSome :=
          keeps.states other present
        rw [lost] at known
        cases known
      · intro nothing
        rw [nothing]
        exact .nothing

end Runs

/-! A guest moves from the lobby to the stage. -/

theorem callBackend_participates (voice : channel = "lobby" ∨ channel = "stage") :
    callBackend.Participates "guest-user" "server" channel := by
  rcases voice with rfl | rfl
  · exact ⟨⟨.textChannel lobbyChannel, rfl, rfl⟩, by decide⟩
  · exact ⟨⟨.textChannel stageChannel, rfl, rfl⟩, by decide⟩

def leaveThenJoin : List CallEvent := [.joined "lobby" 0, .left "lobby", .joined "stage" 1]

def joinThenLeave : List CallEvent := [.joined "lobby" 0, .joined "stage" 1, .left "lobby"]

theorem voiceMoves_keep_state_iff_sample :
    (handleEvents "guest-user" leaveThenJoin callBackend).KeepsCalls "guest-user" "server"
      ["stage"] := by
  have participates : ∀ event ∈ leaveThenJoin,
      callBackend.Participates "guest-user" "server" event.channel := by
    intro event listed
    apply callBackend_participates
    revert event
    decide
  exact (voiceMoves_keep_state_iff participates).mpr (.inr ⟨"stage", 1, rfl⟩)

/-- The reports of the same move in the other order: the guest is on the stage,
and the backend does not know it. -/
theorem voiceMoves_lose_state :
    CallEvent.inOrder [] joinThenLeave ∧ enteredChannels joinThenLeave = ["stage"] ∧
      (handleEvents "guest-user" joinThenLeave callBackend).voice.members "stage" = ["guest-user"] ∧
      (handleEvents "guest-user" joinThenLeave callBackend).voice.getVoiceState "stage"
        (some "server") "guest-user" = none ∧
      (handleEvents "guest-user" joinThenLeave callBackend).voice.getUserVoiceChannelInServer
        "guest-user" "server" = none ∧
      ¬(handleEvents "guest-user" joinThenLeave callBackend).KeepsCalls "guest-user" "server"
        (enteredChannels joinThenLeave) := by
  refine ⟨by decide, by decide, by decide, by decide, by decide, ?_⟩
  intro keeps
  have known := keeps.states "stage" (by decide)
  revert known
  decide

end Company
