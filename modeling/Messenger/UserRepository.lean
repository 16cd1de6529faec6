import Messenger.Database

/-!
user_repository.hpp: accounts, passwords and session tokens. Reads that change
nothing are functions of the store; calls that write, read the clock or draw an
identifier are programs. Logins and hashes are read back through `getText`.
-/
namespace Messenger

open KeyedTables

def tokenTtl : ℤ := 7 * 24 * 60 * 60

/-- One byte as two lowercase hexadecimal digits, zero-filled. -/
def hexByte (b : UInt8) : Bytes :=
  let digit (n : UInt8) : UInt8 := if n < 10 then 48 + n else 87 + n
  [digit (b / 16), digit (b % 16)]

def sha256 (env : Env) (input : Bytes) : Bytes := (env.digest input).flatMap hexByte

/-- The 32 bytes of a digest, written as one number. -/
def digestBytes (n : ℕ) : Bytes :=
  (List.range 32).map fun i => UInt8.ofNat (n >>> (8 * (31 - i)))

/-- SHA-256 on what concrete runs hash: "p", and "p" or its digest as the client writes it, or
"q", before a salt of letters a. -/
def sha256Samples : List (Bytes × ℕ) :=
  let salt (n : ℕ) : Bytes := List.replicate n 97
  let hashed : Bytes :=
    (digestBytes 0x148de9c5a7a44d19e56cd9ae1a554bf67847afb0c58f6e12fa29ac7ddfca9940).flatMap
      hexByte
  [([112], 0x148de9c5a7a44d19e56cd9ae1a554bf67847afb0c58f6e12fa29ac7ddfca9940),
    (112 :: salt 1, 0x9513229d435978263d82902c59d4e0fb86c941a9bf09b605cd8a6643f40149a8),
    (112 :: salt 2, 0x204e1db22bfdc48a931e39b64031a5a700062fde3d9e9144e8fcd321f6bc2d97),
    (112 :: salt 3, 0x2b495ebd2a95db76cd6db614f59f0d74840d13e71e2412dcea3d3a444fd66dcf),
    (112 :: salt 4, 0xbdfe3a6071453aa43e42a60191ae0eff456a4994faed6ec16ad21380601b4071),
    (112 :: salt 5, 0xad2c8c61617777b1098a8ac01288769fb74592f8e2644e6314c501a9853a3c6e),
    (112 :: salt 6, 0x9ffe960efa596031b48a60cb3cf510e51a4863dc9a8fe4238363e7a10eb05d00),
    (112 :: salt 7, 0x47c9f95e254a57c293ba852424299d38f59cae00047444bbd828b38e88760de2),
    (112 :: salt 8, 0xf0d18d5584a3d74b38efc2ffc6c7c85228da6fa71d5f2c9a8a1fe86f9c00a9a4),
    (113 :: salt 1, 0x3f3ef786b34d6dd716e1812c8b74a7a0e1f05aa5f3230588f6f5bcd00c6c8392),
    (hashed ++ salt 1, 0x24a1ca4ddfd6b14a07de12d9fb2ade3c22868bf6501173412ffd178fe768a952),
    (hashed ++ salt 2, 0x06b6ef1d33d94a499a19efefbf79dfbdd28f7ce852e39deac1910df693c4950b),
    (hashed ++ salt 3, 0xab501267185cbd00046e1372f46739c165d267cf1c777b64b9881b4e19eae281),
    (hashed ++ salt 4, 0x2649c538d98dbec01a9337d52450bda157f4af4e16a70bb1389ab5fbcf965d45),
    (hashed ++ salt 5, 0x683ac6841fda8cd824b7256a8c39621cf46baf5684db4140ad9e93003de96fcc),
    (hashed ++ salt 6, 0x0a0c6935b051b3188892086fb5dddde9cf353221f21a56b602246ee0913df836),
    (hashed ++ salt 7, 0x07072825d1ae9f36b992153513791505844b39dba0d79248aad8022eadfa19be),
    (hashed ++ salt 8, 0x2d477a91050b63c13b4743a2472b44c824210856d121aeb2b375444976a008bb)]

/-- The samples, and elsewhere something that tells all strings apart. -/
def sampledDigest (input : Bytes) : Bytes :=
  match sha256Samples.find? (fun sample => sample.1 == input) with
  | some sample => digestBytes sample.2
  | none => List.replicate 33 0 ++ input

/-- An environment for concrete runs: the clock moves a second at each reading, the
identifiers are a, aa, aaa and so on, ciphers copy, and no path names a file. -/
def Env.plain : Env where
  clock n := n
  uuid n := List.replicate (n + 1) 97
  uuid_nulFree n := by simp
  uuid_injective := by
    intro a b h
    simpa using congrArg List.length h
  digest := sampledDigest
  randBytes _ := some (List.replicate 16 0)
  evpEncrypt _ _ data := .ok (data, [])
  evpDecrypt _ _ data := .ok (data, [])
  resolve _ := none
  regular _ := true
  readable _ := true
  writable _ := true
  room _ := 2 ^ 32
  inactive := some Error.Base.ok
  sqlite := .stable

namespace UserRepository

def verifyPassword (env : Env) (login password : Bytes) (store : Store) : Bool :=
  match store.db.findLogin login with
  | none => false
  | some q => sha256 env (password ++ getText q.salt) == getText q.password

def generateSalt (env : Env) : StoreM Bytes := generateUuid env

/-- `users.login` is UNIQUE. -/
def insertUser (login salt hash : Bytes) : StoreM Unit := do
  let store ← get
  if (store.db.findLogin login).isSome then
    throw (.sqliteException "UNIQUE constraint failed: users.login")
  else
    modifyDb (fun db => {
      db with users := db.users.insert (fun id => ⟨id, login, salt, hash⟩) (fun _ => rfl) })

/-- `sessions.token` is the primary key and `sessions.id` refers to a user. -/
def insertSession (token : Bytes) (id createdAt : ℤ) : StoreM Unit := do
  let store ← get
  if (store.db.findToken token).isSome then
    throw (.sqliteException "UNIQUE constraint failed: sessions.token")
  else
    requireUsers [id]
    modifyDb (fun db => { db with sessions := db.sessions ++ [⟨token, id, createdAt⟩] })

def registerUser (env : Env) (login password : Bytes) : StoreM ErrorCode := do
  let store ← get
  if (store.db.findLogin login).isSome then return Error.Auth.loginExists
  else
    let salt ← generateSalt env
    let hash := sha256 env (password ++ salt)
    insertUser login salt hash
    return Error.Base.ok

def verifyUser (env : Env) (login password : Bytes) : StoreM (Except ErrorCode Bytes) := do
  let store ← get
  if !verifyPassword env login password store then
    return .error Error.Auth.incorrectCredentials
  else
    let token ← generateUuid env
    let now ← systemNow env
    match store.db.findLogin login with
    | none => throw .undefinedBehaviour  -- `id` would be used unset
    | some q =>
      insertSession token q.id now
      return .ok token

def deleteToken (token : Bytes) : StoreM Unit :=
  modifyDb (fun db => { db with sessions := db.sessions.filter (fun s => !(s.token == token)) })

def getLoginByToken (env : Env) (token : Bytes) : StoreM (Except ErrorCode Bytes) := do
  let store ← get
  match store.db.findToken token with
  | none => return .error Error.Auth.nonAuthorized
  | some check =>
    let now ← systemNow env
    if now - check.createdAt > tokenTtl then
      deleteToken token
      return .error Error.Auth.tokenExpired
    else
      match store.db.findUser check.id with
      | some q => return .ok (getText q.login)
      | none => return .error Error.User.notFound

def userExists (login : Bytes) (store : Store) : ErrorCode :=
  if (store.db.findLogin login).isSome then Error.Base.ok else Error.User.notFound

def getIdByLogin (login : Bytes) (store : Store) : Except ErrorCode ℤ :=
  match store.db.findLogin login with
  | some q => .ok q.id
  | none => .error Error.User.notFound

/-- An id is there for a login or it is not. -/
theorem getIdByLogin_cases (login : Bytes) (store : Store) :
    ((store.db.findLogin login).isSome ∧ ∃ id, getIdByLogin login store = .ok id) ∨
      (¬ (store.db.findLogin login).isSome ∧
        getIdByLogin login store = .error Error.User.notFound) := by
  unfold getIdByLogin
  cases store.db.findLogin login with
  | some q => exact Or.inl ⟨rfl, q.id, rfl⟩
  | none => exact Or.inr ⟨Bool.false_ne_true, rfl⟩

def getLoginById (id : ℤ) (store : Store) : Except ErrorCode Bytes :=
  match store.db.findUser id with
  | some q => .ok (getText q.login)
  | none => .error Error.User.notFound

def logout (token : Bytes) : StoreM Unit := deleteToken token

def cleanExpiredTokens (env : Env) : StoreM Unit := do
  let now ← systemNow env
  modifyDb (fun db =>
    { db with sessions := db.sessions.filter (fun s => !decide (now - s.createdAt > tokenTtl)) })

end UserRepository

end Messenger
