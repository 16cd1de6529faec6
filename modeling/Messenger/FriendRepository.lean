import Messenger.Database

/-!
friend_repository.hpp: one row for each pair of users, the smaller id first. The
schema has no UNIQUE constraint on the pair, and UPDATE and DELETE select by pair
only, so each operation is written here with the row set its SQL text selects.
-/
namespace Messenger

open KeyedTables

def normalize (a b : ℤ) : ℤ × ℤ := if a < b then (a, b) else (b, a)

namespace FriendshipRow

/-- `user1 = ? AND user2 = ?`. -/
def hasPair (p : ℤ × ℤ) (r : FriendshipRow) : Bool := r.user1 == p.1 && r.user2 == p.2

end FriendshipRow

namespace FriendRepository

def findPair (p : ℤ × ℤ) (store : Store) : Option FriendshipRow :=
  store.db.friendships.rows.find? (FriendshipRow.hasPair p)

def findPending (p : ℤ × ℤ) (store : Store) : Option FriendshipRow :=
  store.db.friendships.rows.find? (fun r => r.hasPair p && r.status == .pending)

def insertFriendship (p : ℤ × ℤ) (status : Status) (initiator : ℤ) : StoreM Unit := do
  requireUsers [p.1, p.2]
  modifyDb (fun db => {
    db with
    friendships := db.friendships.insert
      (fun id => ⟨id, p.1, p.2, status, initiator⟩) (fun _ => rfl) })

def sendRequest (sender target : ℤ) : StoreM ErrorCode := do
  if sender = target then return Error.Friends.requestToYourself
  else
    let store ← get
    match (findPair (normalize sender target) store).map FriendshipRow.status with
    | some .pending => return Error.Friends.alreadySent
    | some .accepted => return Error.Friends.alreadyFriends
    | _ =>
      insertFriendship (normalize sender target) .pending sender
      return Error.Base.ok

def acceptRequest (acceptor requester : ℤ) : StoreM ErrorCode := do
  let store ← get
  match findPending (normalize acceptor requester) store with
  | none => return Error.Friends.acceptNonExistentRequest
  | some check =>
    if check.initiator = acceptor then return Error.Friends.acceptRequestToYourself
    else
      modifyDb (fun db => {
        db with
        friendships := db.friendships.update
          (FriendshipRow.hasPair (normalize acceptor requester))
          (fun r => { r with status := .accepted }) (fun _ => rfl) })
      return Error.Base.ok

def rejectRequest (rejecter requester : ℤ) : StoreM ErrorCode := do
  let store ← get
  match findPending (normalize rejecter requester) store with
  | none => return Error.Friends.rejectNonExistentRequest
  | some check =>
    if check.initiator = rejecter then return Error.Friends.rejectRequestToYourself
    else
      modifyDb (fun db => {
        db with
        friendships := db.friendships.delete
          (FriendshipRow.hasPair (normalize rejecter requester)) })
      return Error.Base.ok

def getFriends (id : ℤ) (store : Store) : List ℤ :=
  (store.db.friendships.rows.filter
      (fun r => (r.user1 == id || r.user2 == id) && r.status == .accepted)).map
    (fun r => if r.user1 = id then r.user2 else r.user1)

def getPendingIncoming (id : ℤ) (store : Store) : List ℤ :=
  (store.db.friendships.rows.filter
      (fun r => (r.user1 == id || r.user2 == id) && r.status == .pending &&
        r.initiator != id)).map
    FriendshipRow.initiator

def areFriends (user1 user2 : ℤ) (store : Store) : ErrorCode :=
  if (store.db.friendships.rows.find?
      (fun r => r.hasPair (normalize user1 user2) && r.status == .accepted)).isSome
  then Error.Base.ok else Error.Friends.notFriends

end FriendRepository

end Messenger
