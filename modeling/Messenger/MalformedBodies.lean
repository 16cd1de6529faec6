import Messenger.ClientSession

/-!
A request body that does not decode. Every handler decodes before it does anything
else, so the decoder's exception leaves handle_packet with the world untouched; but
nothing between the handler and main catches it, and the server ends for everyone.
The decoders of the requests throw and never read past the end of the body.
-/
namespace Messenger.MalformedBodies

open OffsetDecoders Outcomes ClientSession

/-- The request type that the handler of a packet decodes. -/
def requestStruct : PacketType → Option MessageType
  | .register | .login => some .authRequest
  | .message => some .chatSendRequest
  | .upload => some .fileUploadRequest
  | .download => some .fileDownloadRequest
  | .friendRequest | .friendAccept | .friendReject => some .friendRequest
  | .friendList => some .friendListRequest
  | .directMessage => some .directMessageRequest
  | .messageHistory => some .historyRequest
  | .tokenVerify => some .tokenVerifyRequest
  | .chatList => some .chatListRequest
  | .logout => some .logoutRequest
  | _ => none

def Malformed (T : MessageType) (body : Bytes) : Prop := ∀ x, T.deserialize body ≠ .ok x

theorem malformed_iff {T : MessageType} {body : Bytes} :
    Malformed T body ↔ ∃ e, T.deserialize body = .error e := by
  unfold Malformed
  cases T.deserialize body with
  | ok x => simp
  | error e => simp

/-- What the handling of a malformed body would have to be for the server to go on. -/
def Survives (env : Env) (w : World) (c : ConnId) (packetType : PacketType) (body : Bytes) :
    Prop :=
  ∃ w', (handlePacket env c packetType body).run w = .ok () w' ∧
    w'.store.db = w.store.db ∧ w'.onlineUsers = w.onlineUsers ∧
    ∀ d, d ≠ c → w'.sessions d = w.sessions d

def IsRuntimeError (e : Exn) : Prop := ∃ what, e = .runtimeError what

theorem unpack_failsOnly : FailsOnly IsRuntimeError unpack := by
  intro offset body err h
  unfold unpack at h
  split at h
  · cases h
    exact ⟨_, rfl⟩
  · simp only at h
    split at h
    · cases h
      exact ⟨_, rfl⟩
    · cases h

/-- A tuple of strings and byte vectors, as every request is. -/
theorem request_failsOnly {packetType : PacketType} {T : MessageType}
    (hT : requestStruct packetType = some T) {body : Bytes} {e : Exn}
    (h : T.deserialize body = .error e) : IsRuntimeError e := by
  have one : FailsOnly IsRuntimeError (Decoder.pair unpack (Decoder.pure ())) :=
    unpack_failsOnly.pair (failsOnly_pure ())
  have two := unpack_failsOnly.pair one
  have three := unpack_failsOnly.pair two
  cases packetType <;> cases hT
  case register => exact (two.map _).run h
  case login => exact (two.map _).run h
  case upload => exact (three.map _).run h
  case download => exact (two.map _).run h
  case message => exact (two.map _).run h
  case friendRequest => exact (two.map _).run h
  case friendAccept => exact (two.map _).run h
  case friendReject => exact (two.map _).run h
  case friendList => exact (one.map _).run h
  case directMessage => exact (three.map _).run h
  case chatList => exact (one.map _).run h
  case messageHistory => exact (two.map _).run h
  case tokenVerify => exact (one.map _).run h
  case logout => exact (one.map _).run h

theorem decode_error {Derived Args : Type} [Serializable Derived Args] [TupleSerializer Args]
    {body : Bytes} {e : Exn} (h : deserialize Derived body = .error e) :
    (decode Derived body : ServerM Derived) = throw e := by
  unfold decode
  rw [h]

/-- A program that decodes first and throws there does nothing. -/
theorem run_decode_bind {Derived Args β : Type} [Serializable Derived Args]
    [TupleSerializer Args] {body : Bytes} {e : Exn}
    (h : deserialize Derived body = .error e) (rest : Derived → ServerM β) (w : World) :
    (decode Derived body >>= rest).run w = .error e w := by
  rw [decode_error h]
  rfl

theorem run_answer {m : ServerM Response} {e : Exn} {w : World} (h : m.run w = .error e w) :
    (answer m).run w = .error e w := by
  simp only [answer, EStateM.run_bind, h]

theorem run_answerAuth {m : ServerM (Response × Option Bytes)} {e : Exn} {w : World}
    (h : m.run w = .error e w) : (answerAuth m).run w = .error e w := by
  simp only [answerAuth, EStateM.run_bind, h]

/-- The exception passes through the switch with the world as it was. -/
theorem dispatch_malformed {env : Env} {self : ConnId} {packetType : PacketType}
    {T : MessageType} (hT : requestStruct packetType = some T) {body : Bytes} {e : Exn}
    (h : T.deserialize body = .error e) (w : World) :
    (dispatch env self packetType body).run w = .error e w := by
  cases packetType <;> cases hT
  case register => exact run_answerAuth (run_decode_bind h _ w)
  case login => exact run_answerAuth (run_decode_bind h _ w)
  case tokenVerify => exact run_answerAuth (run_decode_bind h _ w)
  case upload => exact run_answer (run_decode_bind h _ w)
  case download => exact run_answer (run_decode_bind h _ w)
  case message => exact run_answer (run_decode_bind h _ w)
  case friendRequest => exact run_answer (run_decode_bind h _ w)
  case friendAccept => exact run_answer (run_decode_bind h _ w)
  case friendReject => exact run_answer (run_decode_bind h _ w)
  case friendList => exact run_answer (run_decode_bind h _ w)
  case directMessage => exact run_answer (run_decode_bind h _ w)
  case chatList => exact run_answer (run_decode_bind h _ w)
  case messageHistory => exact run_answer (run_decode_bind h _ w)
  case logout =>
    have hlogout : (handleLogout self body).run w = .error e w := run_decode_bind h _ w
    simp only [dispatch, EStateM.run_bind, hlogout]

/-- No malformed body is survived, whoever sends it: the exception leaves handle_packet
with every table, the map and all sessions as they were, and ends the server. -/
theorem malformed_body_terminates (env : Env) (w : World) (c : ConnId) (packetType : PacketType)
    (T : MessageType) (hT : requestStruct packetType = some T) (body : Bytes)
    (hbad : Malformed T body) :
    ¬ Survives env w c packetType body ∧
      (∃ what, (handlePacket env c packetType body).run w = .error (.runtimeError what) w) ∧
      (w.status = .running → (w.sessions c).isSome →
        w.step env (.packet c packetType body) = w.terminate) := by
  obtain ⟨e, he⟩ := malformed_iff.mp hbad
  obtain ⟨what, rfl⟩ := request_failsOnly hT he
  have hrun : (handlePacket env c packetType body).run w = .error (.runtimeError what) w := by
    simp only [handlePacket, EStateM.run_bind, dispatch_malformed hT he w]
  refine ⟨?_, ⟨what, hrun⟩, ?_⟩
  · rintro ⟨w', hok, -⟩
    rw [hrun] at hok
    cases hok
  · intro hstatus hlive
    simp [World.step, hstatus, hlive, World.receive, hrun]

theorem malformed_body_terminates_truncated_login :
    ¬ Survives Env.plain ((World.initial Env.plain fun _ => none).accept) 0 .login [0, 0, 0, 9] :=
  (malformed_body_terminates Env.plain _ 0 .login .authRequest rfl [0, 0, 0, 9]
    (malformed_iff.mpr ⟨_, rfl⟩)).1

/-- Malformed bodies are not always survived: on the first connection an empty LOGIN from a
client that is not logged in leaves no session of any client. -/
theorem empty_login_ends_server :
    ∃ w, World.Reachable Env.plain w ∧ w.status = .running ∧ (w.sessions 0).isSome ∧
      Malformed .authRequest [] ∧ ¬ Survives Env.plain w 0 .login [] ∧
      (w.step Env.plain (.packet 0 .login [])).status = .terminated := by
  refine ⟨LabelledRuns.run (World.step Env.plain) (World.initial Env.plain fun _ => none)
    [.connect], ⟨_, _, rfl⟩, by decide, by decide, malformed_iff.mpr ⟨_, rfl⟩, ?_, by decide⟩
  rintro ⟨w', hok, -⟩
  cases hok

end Messenger.MalformedBodies
