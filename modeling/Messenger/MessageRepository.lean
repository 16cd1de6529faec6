import Messenger.UserRepository

/-!
message_repository.hpp: stored direct messages, their delivered flag and the queries
that read them back. Texts go in as bound bytes and come out through `getText`.
-/
namespace Messenger

open KeyedTables

structure StoredMessage where
  id : ℤ
  sender : ℤ
  timestamp : ℤ
  message : Bytes
deriving DecidableEq, Repr

structure DirectMessage where
  id : ℤ
  sender : ℤ
  recipient : ℤ
  timestamp : ℤ
  message : Bytes
  delivered : Bool
deriving DecidableEq, Repr

structure LastMessage where
  peerLogin : Bytes
  message : Bytes
  timestamp : ℤ
deriving DecidableEq, Repr

/-- `SQLITE_MAX_VARIABLE_NUMBER`: a statement with more parameters is not prepared. -/
def maxVariableNumber : ℕ := 32766

namespace MessageRepository

/-- Returns `getLastInsertRowid()`, the id of the new row. -/
def saveMessage (env : Env) (sender recipient : ℤ) (message : Bytes) : StoreM ℤ := do
  let now ← systemNow env
  requireUsers [sender, recipient]
  modifyDb (fun db => {
    db with
    directMessages := db.directMessages.insert
      (fun id => ⟨id, sender, recipient, now, message, 0⟩) (fun _ => rfl) })
  let store ← get
  return store.db.directMessages.seq

/-- `recipient = ? AND delivered = 0`, before ORDER BY. -/
def undeliveredRows (recipient : ℤ) (store : Store) : List DirectMessageRow :=
  store.db.directMessages.rows.filter (fun r => r.recipient == recipient && r.delivered == 0)

def getUndelivered (env : Env) (recipient : ℤ) (store : Store) : List StoredMessage :=
  (env.sqlite.orderBy DirectMessageRow.createAt (undeliveredRows recipient store)).map
    (fun r => ⟨r.id, r.sender, r.createAt, getText r.message⟩)

def markDelivered (ids : List ℤ) : StoreM Unit := do
  if ids.length > maxVariableNumber then
    throw (.sqliteException "too many SQL variables")
  else
    modifyDb (fun db => {
      db with
      directMessages := db.directMessages.update (fun r => ids.contains r.id)
        (fun r => { r with delivered := 1 }) (fun _ => rfl) })

def peerOf (userId : ℤ) (r : DirectMessageRow) : ℤ :=
  if r.sender = userId then r.recipient else r.sender

/-- GROUP BY peer HAVING create_at = MAX(create_at), one row for each group kept. -/
def lastRows (env : Env) (userId : ℤ) (store : Store) : List DirectMessageRow :=
  let rows := store.db.directMessages.rows.filter
    (fun r => r.sender == userId || r.recipient == userId)
  let peers := (rows.map (peerOf userId)).dedup
  peers.filterMap (fun peer =>
    let group := rows.filter (fun r => peerOf userId r == peer)
    (env.sqlite.maxRow DirectMessageRow.createAt group).filter
      (fun bare => group.all (fun r => decide (r.createAt ≤ bare.createAt))))

def getLastMessages (env : Env) (userId : ℤ) (store : Store) : List LastMessage :=
  (env.sqlite.orderBy (fun r => -r.createAt) (lastRows env userId store)).map (fun r =>
    { peerLogin :=
        match UserRepository.getLoginById (peerOf userId r) store with
        | .ok login => login
        | .error _ => []
      message := getText r.message
      timestamp := r.createAt })

/-- LIMIT with a negative number is no limit. -/
def limited {α : Type} (limit : ℤ) (rows : List α) : List α :=
  if limit < 0 then rows else rows.take limit.toNat

theorem mem_of_limited {α : Type} {limit : ℤ} {rows : List α} {r : α}
    (h : r ∈ limited limit rows) : r ∈ rows := by
  unfold limited at h
  split at h
  · exact h
  · exact List.mem_of_mem_take h

def getHistory (env : Env) (user1 user2 limit : ℤ) (store : Store) : List DirectMessage :=
  (limited limit (env.sqlite.orderBy DirectMessageRow.createAt
    (store.db.directMessages.rows.filter (fun r =>
      (r.sender == user1 && r.recipient == user2) ||
        (r.sender == user2 && r.recipient == user1))))).map
    (fun r => ⟨r.id, r.sender, r.recipient, r.createAt, getText r.message,
      if r.delivered = 0 then false else true⟩)

end MessageRepository

end Messenger
