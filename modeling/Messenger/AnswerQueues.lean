import Mathlib.Data.List.Basic

/-!
Answers without an identifier, matched by their order. A client notes a tag for each
request that will be answered and takes an answer for that of the oldest tag; requests
and answers travel in order, other packets are mixed in with the answers. The tags are
then always those of the answers under way followed by those of the open requests.
-/
namespace Messenger.AnswerQueues

variable {Request Packet Tag : Type} (awaits : Request → Option Tag)
  (answerTo : Packet → Option Tag)

/-- `awaits` gives the tag of a request that will be answered, `answerTo` the tag of the
request that a packet answers, if it is an answer at all. -/
def InStep (pending : List Tag) (requests : List Request) (packets : List Packet) : Prop :=
  pending = packets.filterMap answerTo ++ requests.filterMap awaits

variable {awaits answerTo} {pending : List Tag} {requests : List Request}
  {packets : List Packet}

theorem inStep_nil : InStep awaits answerTo [] [] [] := rfl

/-- A request is made, and noted if it will be answered. -/
theorem InStep.ask (h : InStep awaits answerTo pending requests packets) (request : Request) :
    InStep awaits answerTo (pending ++ (awaits request).toList) (requests ++ [request])
      packets := by
  have hlast : [request].filterMap awaits = (awaits request).toList := by
    cases hawaits : awaits request <;> simp [hawaits]
  rw [InStep, h, List.filterMap_append, hlast, List.append_assoc]

/-- The oldest request is served: what is sent holds its answer and no other. -/
theorem InStep.serve {request : Request} {new : List Packet}
    (h : InStep awaits answerTo pending (request :: requests) packets)
    (hnew : new.filterMap answerTo = (awaits request).toList) :
    InStep awaits answerTo pending requests (packets ++ new) := by
  have hfirst : (request :: requests).filterMap awaits =
      (awaits request).toList ++ requests.filterMap awaits := by
    cases hawaits : awaits request <;> simp [hawaits]
  rw [InStep, h, hfirst, List.filterMap_append, hnew, List.append_assoc]

/-- Packets that answer nothing are sent. -/
theorem InStep.push {new : List Packet} (h : InStep awaits answerTo pending requests packets)
    (hnew : new.filterMap answerTo = []) :
    InStep awaits answerTo pending requests (packets ++ new) := by
  rw [InStep, h, List.filterMap_append, hnew, List.append_nil]

/-- A packet arrives that is no answer. -/
theorem InStep.takePush {packet : Packet}
    (h : InStep awaits answerTo pending requests (packet :: packets))
    (hpacket : answerTo packet = none) : InStep awaits answerTo pending requests packets := by
  rw [InStep, h, List.filterMap_cons_none hpacket]

/-- An answer arrives: the oldest tag is that of its request. -/
theorem InStep.takeAnswer {packet : Packet} {tag : Tag}
    (h : InStep awaits answerTo pending requests (packet :: packets))
    (hpacket : answerTo packet = some tag) :
    ∃ rest, pending = tag :: rest ∧ InStep awaits answerTo rest requests packets := by
  refine ⟨packets.filterMap answerTo ++ requests.filterMap awaits, ?_, rfl⟩
  rw [h, List.filterMap_cons_some hpacket, List.cons_append]

end Messenger.AnswerQueues
