import Mathlib.Logic.Function.Basic
import Mathlib.Tactic.NormNum

/-!
The vocabulary of codes.hpp and protocol.hpp: error codes with their category
bits, packet types as they travel in a header, and the ways in which a C++
function can leave without returning. An exception carries its text, so that
a caller's view of a failure is the one the source gives.
-/
namespace Messenger

abbrev Bytes := List UInt8

/-- What leaves a function that does not return. `undefinedBehaviour` stands for
an inactive member or an unset variable being read, `outOfBoundsRead` for a
read past the end of a buffer; neither is an exception in C++. -/
inductive Exn where
  | runtimeError (what : String)
  | invalidArgument (what : String)
  | lengthError (what : String)
  | badExpectedAccess
  | sqliteException (what : String)
  | filesystemError (what : String)
  | outOfBoundsRead
  | undefinedBehaviour
deriving DecidableEq, Repr

structure ErrorCode where
  value : UInt32
deriving DecidableEq, Repr

namespace ErrorCode

def ok (e : ErrorCode) : Bool := e.value == 1

end ErrorCode

namespace ErrorCategory

def base : UInt32 := 0x00000000
def auth : UInt32 := 0x10000000
def message : UInt32 := 0x20000000
def friends : UInt32 := 0x30000000
def user : UInt32 := 0x40000000

end ErrorCategory

def makeCode (c n : UInt32) : ErrorCode := ⟨c ||| n⟩

namespace Error.Base

def unknown : ErrorCode := ⟨0⟩
def ok : ErrorCode := ⟨1⟩

end Error.Base

namespace Error.Auth

def loginExists : ErrorCode := makeCode ErrorCategory.auth 1
def incorrectCredentials : ErrorCode := makeCode ErrorCategory.auth 2
def nonAuthorized : ErrorCode := makeCode ErrorCategory.auth 3
def tokenExpired : ErrorCode := makeCode ErrorCategory.auth 4

end Error.Auth

namespace Error.Friends

def alreadyFriends : ErrorCode := makeCode ErrorCategory.friends 1
def alreadySent : ErrorCode := makeCode ErrorCategory.friends 2
def requestToYourself : ErrorCode := makeCode ErrorCategory.friends 3
def acceptNonExistentRequest : ErrorCode := makeCode ErrorCategory.friends 4
def acceptRequestToYourself : ErrorCode := makeCode ErrorCategory.friends 5
def rejectNonExistentRequest : ErrorCode := makeCode ErrorCategory.friends 6
def rejectRequestToYourself : ErrorCode := makeCode ErrorCategory.friends 7
def notFriends : ErrorCode := makeCode ErrorCategory.friends 8

end Error.Friends

namespace Error.User

def notFound : ErrorCode := makeCode ErrorCategory.user 1

end Error.User

@[simp] theorem base_ok : Error.Base.ok.ok = true := by decide

/-- `enum class PacketType : uint32_t`. A header can hold any 32-bit value, so
the values without a name are kept apart from the eighteen that have one. -/
inductive PacketType where
  | register
  | login
  | upload
  | download
  | message
  | result
  | friendRequest
  | friendAccept
  | friendReject
  | friendList
  | directMessage
  | chatList
  | messageHistory
  | tokenVerify
  | logout
  | friendNewRequest
  | friendRequestAccepted
  | friendRequestRejected
  | unnamed (value : UInt32) (h : value = 0 ∨ 18 < value)
deriving DecidableEq, Repr

namespace PacketType

def toUInt32 : PacketType → UInt32
  | register => 1
  | login => 2
  | upload => 3
  | download => 4
  | message => 5
  | result => 6
  | friendRequest => 7
  | friendAccept => 8
  | friendReject => 9
  | friendList => 10
  | directMessage => 11
  | chatList => 12
  | messageHistory => 13
  | tokenVerify => 14
  | logout => 15
  | friendNewRequest => 16
  | friendRequestAccepted => 17
  | friendRequestRejected => 18
  | unnamed value _ => value

def named : List PacketType :=
  [register, login, upload, download, message, result, friendRequest, friendAccept,
    friendReject, friendList, directMessage, chatList, messageHistory, tokenVerify, logout,
    friendNewRequest, friendRequestAccepted, friendRequestRejected]

/-- `static_cast<PacketType>` of a header word. -/
def ofUInt32 (n : UInt32) : PacketType :=
  if h : n = 0 ∨ 18 < n then unnamed n h
  else (named.find? (fun t => t.toUInt32 == n)).getD result

theorem ofUInt32_toUInt32 (t : PacketType) : ofUInt32 t.toUInt32 = t := by
  cases t with
  | unnamed value h => simp [toUInt32, ofUInt32, h]
  | _ => decide

end PacketType

end Messenger
