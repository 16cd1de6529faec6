import Messenger.ServerSteps

/-!
What one step of the server sends. The handling of a packet sends pushes, each a message
that its receiver can decode, and then, when the request is one that is answered, one
RESULT with the value the handler built. No other step sends anything.
-/
namespace Messenger.ServerSends

open Outcomes ClientSession HandlerActions HandlePacket ServerSteps

/-- The request that a packet answers. -/
def answeredRequest (s : Sent) : Option PacketType :=
  match s.cause with
  | .result request _ => some request
  | _ => none

/-- A packet that answers nothing: relayed through the map, or a stored message. -/
structure IsPush (s : Sent) : Prop where
  packet : Relays s.packetType s.body ∨
    (s.packetType = .directMessage ∧ ∃ msg : DirectMessageIncoming, s.body = serialize msg)
  cause : answeredRequest s = none

/-- The answer to one request, if it is answered. -/
inductive AnswerTo (c : ConnId) (packetType : PacketType) : List Sent → Prop where
  | none (h : awaitsResult packetType = false) : AnswerTo c packetType []
  | some (r : Response) (asLogin : Bytes) (h : answers packetType r = true) :
      AnswerTo c packetType [⟨c, .result, r.serialize, .result packetType r, asLogin⟩]

theorem AnswerTo.packetType_ne {c : ConnId} {packetType t : PacketType} {answer : List Sent}
    (h : AnswerTo c packetType answer) (ht : t ≠ .result) : ∀ p ∈ answer, p.packetType ≠ t := by
  intro p hp
  cases h with
  | none _ => cases hp
  | some r asLogin _ =>
    obtain rfl := List.mem_singleton.mp hp
    exact ht.symm

/-- All that was sent in between are pushes. -/
def OnlyPushes (w w' : World) : Prop :=
  ∃ pushes, w'.sent = w.sent ++ pushes ∧ ∀ s ∈ pushes, IsPush s

theorem onlyPushes_of_eq {w w' : World} (h : w'.sent = w.sent) : OnlyPushes w w' :=
  ⟨[], by rw [h, List.append_nil], fun _ hs => absurd hs List.not_mem_nil⟩

theorem OnlyPushes.trans {w₀ w₁ w₂ : World} (h : OnlyPushes w₀ w₁) (h' : OnlyPushes w₁ w₂) :
    OnlyPushes w₀ w₂ := by
  obtain ⟨pushes, hsent, hpushes⟩ := h
  obtain ⟨pushes', hsent', hpushes'⟩ := h'
  refine ⟨pushes ++ pushes', by rw [hsent', hsent, List.append_assoc], ?_⟩
  exact List.forall_mem_append.mpr ⟨hpushes, hpushes'⟩

theorem Action.onlyPushes {env : Env} {w w' : World} (h : Action env w w') :
    OnlyPushes w w' := by
  cases h with
  | account h =>
    cases h with
    | store _ _ => exact onlyPushes_of_eq rfl
    | token _ _ => exact onlyPushes_of_eq rfl
  | draw _ => exact onlyPushes_of_eq rfl
  | write _ _ _ => exact onlyPushes_of_eq rfl
  | relay login conn packetType body cause _ hcause hrelays =>
    refine ⟨_, rfl, ?_⟩
    intro s hs
    rw [List.mem_singleton] at hs
    subst s
    refine ⟨Or.inl hrelays, ?_⟩
    rcases hcause with rfl | rfl <;> rfl
  | direct sender recipient now message pushed _ hpush =>
    refine ⟨pushed, rfl, ?_⟩
    intro s hs
    rcases hpush with rfl | ⟨login, conn, msg, -, -, rfl⟩
    · cases hs
    · rw [List.mem_singleton] at hs
      subst s
      exact ⟨Or.inr ⟨rfl, msg, rfl⟩, rfl⟩

theorem dispatch_onlyPushes (env : Env) (c : ConnId) (packetType : PacketType) (body : Bytes)
    (w : World) : OnlyPushes w (final ((dispatch env c packetType body).run w)) := by
  have haction : ∀ s t, Action env s t → OnlyPushes w s → OnlyPushes w t :=
    fun s t hst hs => hs.trans (Action.onlyPushes hst)
  exact dispatch_preserves env c packetType body haction
    (fun store _ => onlyPushes_of_eq rfl) (onlyPushes_of_eq rfl)

/-- The backlog is pushed as well. -/
theorem welcomed_onlyPushes (env : Env) {w : World} {c : ConnId} (hlive : (w.sessions c).isSome)
    {login : Bytes} (hsenders : SendersFound w.store (backlog env login w.store)) :
    OnlyPushes w (welcomed env w c login) := by
  refine ⟨_, welcomed_sent env hlive login, ?_⟩
  intro s hs
  obtain ⟨el, hel, rfl⟩ := List.mem_map.mp hs
  obtain ⟨senderLogin, hfound⟩ := hsenders el hel
  refine ⟨Or.inr ⟨rfl, ⟨senderLogin, el.message, Int64.ofInt el.timestamp⟩, ?_⟩, rfl⟩
  simp only [backlogPacket, hfound]

theorem withAnswer_sent (w : World) (c : ConnId) {packetType : PacketType}
    {r : Option Response} (h : FitsRequest packetType r) :
    ∃ answer, (withAnswer w c packetType r).sent = w.sent ++ answer ∧
      AnswerTo c packetType answer := by
  cases r with
  | none => exact ⟨[], (List.append_nil _).symm, .none h⟩
  | some r => exact ⟨_, rfl, .some r _ h⟩

/-- A packet that does not end the server is followed by pushes and then by its answer. -/
theorem receive_sends (env : Env) {w : World} {c : ConnId} (packetType : PacketType)
    (body : Bytes) (hlive : (w.sessions c).isSome)
    (hup : (w.receive env c packetType body).status ≠ .terminated) :
    ∃ pushes answer, (w.receive env c packetType body).sent = w.sent ++ (pushes ++ answer) ∧
      (∀ s ∈ pushes, IsPush s) ∧ AnswerTo c packetType answer := by
  have hpushes := dispatch_onlyPushes env c packetType body w
  have hfits := dispatch_fitsRequest env c body packetType
  have hcases := handlePacket_handling env packetType body hlive
  unfold World.receive at hup ⊢
  generalize (handlePacket env c packetType body).run w = result at hcases hup
  cases hcases with
  | thrown e w₁ hrun => exact absurd rfl hup
  | undelivered r login w₁ e handed hrun _ => exact absurd rfl hup
  | answered r w₁ hrun =>
    rw [hrun, final_ok] at hpushes
    obtain ⟨pushes, hsent, hall⟩ := hpushes
    obtain ⟨answer, hanswer, hto⟩ := withAnswer_sent w₁ c (hfits w _ w₁ hrun)
    refine ⟨pushes, answer, ?_, hall, hto⟩
    exact hanswer.trans (by rw [hsent, List.append_assoc])
  | welcomed r login w₁ hrun _ hsenders =>
    have hlive₁ : (w₁.sessions c).isSome := (unseen_of_dispatch hrun).2.logins.live hlive
    rw [hrun, final_ok] at hpushes
    obtain ⟨pushes, hsent, hall⟩ := hpushes.trans (welcomed_onlyPushes env hlive₁ hsenders)
    obtain ⟨answer, hanswer, hto⟩ :=
      withAnswer_sent (welcomed env w₁ c login) c (hfits w _ w₁ hrun)
    refine ⟨pushes, answer, ?_, hall, hto⟩
    exact hanswer.trans (by rw [hsent, List.append_assoc])

/-- What a step sends to a session whose packet it does not handle are pushes. -/
theorem step_pushes (env : Env) {w : World} {c : ConnId} {e : Event}
    (hother : ∀ packetType body, e ≠ .packet c packetType body)
    (hup : (w.step env e).status ≠ .terminated) :
    ∃ new, (w.step env e).sent = w.sent ++ new ∧ ∀ s ∈ new, s.conn = c → IsPush s := by
  have hnothing : ∀ w' : World, w'.sent = w.sent →
      ∃ new, w'.sent = w.sent ++ new ∧ ∀ s ∈ new, s.conn = c → IsPush s :=
    fun w' h => ⟨[], by rw [h, List.append_nil], fun s hs => absurd hs List.not_mem_nil⟩
  have hstep := step_stepping env w e
  generalize w.step env e = w' at hstep hup
  cases hstep with
  | idle e => exact hnothing _ rfl
  | restart => exact hnothing _ rfl
  | connect _ => exact hnothing _ rfl
  | disconnect d _ => exact hnothing _ rfl
  | cleanTokens _ => exact hnothing _ rfl
  | packet d packetType body _ hlive =>
    have hne : c ≠ d := by
      rintro rfl
      exact hother packetType body rfl
    obtain ⟨pushes, answer, hsent, hall, hto⟩ := receive_sends env packetType body hlive hup
    refine ⟨_, hsent, ?_⟩
    intro s hs hconn
    rcases List.mem_append.mp hs with hpush | hanswer
    · exact hall s hpush
    · cases hto with
      | none h => cases hanswer
      | some r asLogin h =>
        rw [List.mem_singleton] at hanswer
        subst s
        exact absurd hconn.symm hne

end Messenger.ServerSends
