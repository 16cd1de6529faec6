import Messenger.Codes
import Messenger.KeyedTables
import Messenger.Outcomes
import Mathlib.Data.List.Dedup
import Mathlib.Data.List.Sort
import Mathlib.Data.List.TakeWhile

/-!
The four tables of database.hpp and what the repositories rely on outside them.
Columns keep their SQL types: integers are ℤ, texts are byte strings of any content and
of any length, where SQLite itself refuses those of more than 10^9 bytes.
`Env` holds what is not in the source: the system clock, the UUID generator, OpenSSL,
the file system and those answers of SQLite that its documentation leaves open.
A repository call is a program over `Store`, which also counts the readings of the
clock and the identifiers drawn so far.
-/
namespace Messenger

open KeyedTables Outcomes

structure UserRow where
  id : ℤ
  login : Bytes
  salt : Bytes
  password : Bytes
deriving DecidableEq, Repr

/-- The texts that a status column can hold; the code writes the first two. -/
inductive Status where
  | pending
  | accepted
  | other (text : Bytes)
deriving DecidableEq, Repr

structure FriendshipRow where
  id : ℤ
  user1 : ℤ
  user2 : ℤ
  status : Status
  initiator : ℤ
deriving DecidableEq, Repr

structure DirectMessageRow where
  id : ℤ
  sender : ℤ
  recipient : ℤ
  createAt : ℤ
  message : Bytes
  delivered : ℤ
deriving DecidableEq, Repr

structure SessionRow where
  token : Bytes
  id : ℤ
  createdAt : ℤ
deriving DecidableEq, Repr

/-- `id` is AUTOINCREMENT in three tables; `sessions` is keyed by its token. -/
structure Database where
  users : Table UserRow.id
  friendships : Table FriendshipRow.id
  directMessages : Table DirectMessageRow.id
  sessions : List SessionRow

namespace Database

/-- `create_tables` on a new file. -/
def created : Database :=
  ⟨Table.empty _, Table.empty _, Table.empty _, []⟩

def findLogin (db : Database) (login : Bytes) : Option UserRow :=
  db.users.rows.find? (fun u => u.login == login)

def findUser (db : Database) (id : ℤ) : Option UserRow :=
  db.users.rows.find? (fun u => u.id == id)

def findToken (db : Database) (token : Bytes) : Option SessionRow :=
  db.sessions.find? (fun s => s.token == token)

variable {db : Database}

theorem login_of_findLogin {login : Bytes} {u : UserRow} (h : db.findLogin login = some u) :
    u.login = login := by
  simpa using List.find?_some h

theorem findUser_of_findLogin {login : Bytes} {u : UserRow} (h : db.findLogin login = some u) :
    db.findUser u.id = some u := by
  have hu : u ∈ db.users.rows := List.mem_of_find?_eq_some h
  cases hfind : db.findUser u.id with
  | none =>
    have hno := List.find?_eq_none.mp hfind u hu
    simp at hno
  | some v =>
    have hv : v ∈ db.users.rows := List.mem_of_find?_eq_some hfind
    have hid : v.id = u.id := by simpa using List.find?_some hfind
    rw [db.users.eq_of_key_eq hv hu hid]

end Database

/-- What a C function sees of a byte string: the bytes before the first NUL. -/
def cStr (text : Bytes) : Bytes := text.takeWhile (fun b => b != 0)

/-- `Column::getText` returns a C string. -/
def getText (column : Bytes) : Bytes := cStr column

theorem getText_eq_self_iff (text : Bytes) : getText text = text ↔ 0 ∉ text := by
  unfold getText cStr
  rw [List.takeWhile_eq_self_iff]
  constructor
  · intro h hmem
    simpa using h 0 hmem
  · intro h b hb
    have hne : b ≠ 0 := fun h0 => h (h0 ▸ hb)
    simpa using hne

/-- SQLite, as far as its documentation fixes the answer. Rows that ORDER BY finds
equal come in any order; the bare columns beside a MAX come from a row that attains it. -/
structure Sqlite where
  orderBy : ∀ {ρ : Type}, (ρ → ℤ) → List ρ → List ρ
  orderBy_perm : ∀ {ρ : Type} (key : ρ → ℤ) (rows : List ρ), (orderBy key rows).Perm rows
  orderBy_sorted : ∀ {ρ : Type} (key : ρ → ℤ) (rows : List ρ),
    (orderBy key rows).Pairwise (fun a b => key a ≤ key b)
  maxRow : ∀ {ρ : Type}, (ρ → ℤ) → List ρ → Option ρ
  maxRow_attains : ∀ {ρ : Type} (key : ρ → ℤ) (rows : List ρ), rows ≠ [] →
    ∃ r ∈ rows, maxRow key rows = some r ∧ ∀ a ∈ rows, key a ≤ key r

/-- One behaviour the documentation allows: a stable sort of the rows in rowid order. -/
def Sqlite.stable : Sqlite where
  orderBy key rows := rows.insertionSort (fun a b => key a ≤ key b)
  orderBy_perm key rows := List.perm_insertionSort _ rows
  orderBy_sorted key rows := List.pairwise_insertionSort _ rows
  maxRow key rows := (rows.insertionSort (fun a b => -key a ≤ -key b)).head?
  maxRow_attains key rows hne := by
    have hperm := List.perm_insertionSort (fun a b => -key a ≤ -key b) rows
    have hsorted := List.pairwise_insertionSort (fun a b => -key a ≤ -key b) rows
    cases hrows : rows.insertionSort (fun a b => -key a ≤ -key b) with
    | nil =>
      rw [hrows] at hperm
      exact absurd hperm.nil_eq.symm hne
    | cons r rest =>
      rw [hrows] at hperm hsorted
      refine ⟨r, hperm.subset List.mem_cons_self, rfl, fun a ha => ?_⟩
      rcases List.mem_cons.mp (hperm.symm.subset ha) with rfl | hrest
      · exact le_rfl
      · exact neg_le_neg_iff.mp ((List.pairwise_cons.mp hsorted).1 a hrest)

/-- The OpenSSL call at which a cipher run stops. -/
inductive CipherStage where
  | context
  | init
  | update
  | final
deriving DecidableEq, Repr

structure Env where
  /-- successive readings of the system clock, in seconds since the epoch -/
  clock : ℕ → ℤ
  /-- successive identifiers of `random_generator`, as `to_string` writes them -/
  uuid : ℕ → Bytes
  uuid_nulFree : ∀ n, 0 ∉ uuid n
  uuid_injective : Function.Injective uuid
  /-- OpenSSL's SHA256 and RAND_bytes -/
  digest : Bytes → Bytes
  randBytes : ℕ → Option Bytes
  /-- AES-256-CBC on a key, an IV and data: the outputs of Update and of Final -/
  evpEncrypt : Bytes → Bytes → Bytes → Except CipherStage (Bytes × Bytes)
  evpDecrypt : Bytes → Bytes → Bytes → Except CipherStage (Bytes × Bytes)
  /-- the file that a C path names, what may be done with it, and how many of the bytes
  written to it the disk takes -/
  resolve : Bytes → Option ℕ
  regular : ℕ → Bool
  readable : ℕ → Bool
  writable : ℕ → Bool
  room : ℕ → ℕ
  /-- what a read of the inactive member of an expected yields, if the program survives it -/
  inactive : Option ErrorCode
  sqlite : Sqlite

structure Store where
  db : Database
  clockReads : ℕ
  uuidsDrawn : ℕ

abbrev StoreM := EStateM Exn Store

/-- `system_clock::now()` in whole seconds. -/
def systemNow (env : Env) : StoreM ℤ := do
  let store ← get
  modify (fun st => { st with clockReads := st.clockReads + 1 })
  return env.clock store.clockReads

/-- `to_string(generator_uuids())`. -/
def generateUuid (env : Env) : StoreM Bytes := do
  let store ← get
  modify (fun st => { st with uuidsDrawn := st.uuidsDrawn + 1 })
  return env.uuid store.uuidsDrawn

def modifyDb (f : Database → Database) : StoreM Unit :=
  modify (fun st => { st with db := f st.db })

/-- `PRAGMA foreign_keys=ON`: an insert whose references name no user fails. -/
def requireUsers (ids : List ℤ) : StoreM Unit := do
  let store ← get
  if ids.all (fun id => (store.db.findUser id).isSome) then return ()
  else throw (.sqliteException "FOREIGN KEY constraint failed")

@[simp] theorem run_systemNow (env : Env) (st : Store) :
    (systemNow env).run st =
      .ok (env.clock st.clockReads) { st with clockReads := st.clockReads + 1 } := rfl

@[simp] theorem run_generateUuid (env : Env) (st : Store) :
    (generateUuid env).run st =
      .ok (env.uuid st.uuidsDrawn) { st with uuidsDrawn := st.uuidsDrawn + 1 } := rfl

@[simp] theorem run_modifyDb (f : Database → Database) (st : Store) :
    (modifyDb f).run st = .ok () { st with db := f st.db } := rfl

theorem requireUsers_cases (ids : List ℤ) (st : Store) :
    ((∀ id ∈ ids, (st.db.findUser id).isSome) ∧ (requireUsers ids).run st = .ok () st) ∨
      (requireUsers ids).run st =
        .error (.sqliteException "FOREIGN KEY constraint failed") st := by
  cases h : ids.all (fun id => (st.db.findUser id).isSome) with
  | true =>
    refine Or.inl ⟨List.all_eq_true.mp h, ?_⟩
    simp only [requireUsers, EStateM.run_bind, EStateM.run_get, h, if_true, EStateM.run_pure]
  | false =>
    refine Or.inr ?_
    simp only [requireUsers, EStateM.run_bind, EStateM.run_get, h, Bool.false_eq_true, if_false,
      run_throw_any]

end Messenger
