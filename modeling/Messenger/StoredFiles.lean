import Messenger.TokenRequests

/-!
The files behind UPLOAD and DOWNLOAD. Encryption draws an IV and is otherwise a function of
the data, reading and decryption are functions of the files, and a write either replaces the
file that the name leads to, as far as there is room, or is lost.
-/
namespace Messenger.StoredFiles

open Outcomes ClientSession HandlerActions HandlePacket TokenRequests

/-- What encryptAES returns under the server's key, by the IV that is drawn. -/
def sealed (env : Env) (draw : ℕ) (plaintext : Bytes) : Except Exn Bytes :=
  match env.randBytes draw with
  | none => .error (.runtimeError "Failed to generate IV using RAND_bytes")
  | some iv =>
    match env.evpEncrypt serverKey iv plaintext with
    | .error .context => .error (.runtimeError "Failed to create cipher context")
    | .error .init => .error (.runtimeError "Failed to initialize encryption")
    | .error .update => .error (.runtimeError "Encryption failed")
    | .error .final => .error (.runtimeError "Finalization failed")
    | .ok (out, last) =>
      if out.length + last.length < 2 ^ 31 then .ok (iv ++ (out ++ last))
      else .error (.lengthError "vector::_M_default_append")

/-- What decryptAES returns under the server's key. -/
def unsealed (env : Env) (bytes : Bytes) : Except Exn Bytes :=
  if bytes.length < 16 then
    .error (.invalidArgument "Ciphertext too short: less than 16 bytes for IV")
  else
    match env.evpDecrypt serverKey (bytes.take 16) (bytes.drop 16) with
    | .error .context => .error (.runtimeError "Failed to create cipher context")
    | .error .init => .error (.runtimeError "Failed to initialize decryption")
    | .error .update => .error (.runtimeError "Decryption failed")
    | .error .final =>
      .error (.runtimeError "Decryption finalization failed - wrong key or corrupted data")
    | .ok (out, last) =>
      if out.length + last.length < 2 ^ 31 then .ok (out ++ last)
      else .error (.lengthError "vector::_M_default_append")

/-- A file that cannot be read leaves the buffer as it was made. -/
def readFrom (env : Env) (file : ℕ) (content : Bytes) : Bytes :=
  if env.readable file then content else List.replicate content.length 0

/-- What fileToBytes returns. -/
def contentOf (env : Env) (fileName : Bytes) (files : ℕ → Option Bytes) : Except Exn Bytes :=
  match (env.resolve (cStr fileName)).bind (fun file => (files file).map (file, ·)) with
  | none => .error (.filesystemError "cannot get file size")
  | some (file, content) =>
    if env.regular file then .ok (readFrom env file content)
    else .error (.filesystemError "cannot get file size")

/-- A write that opens its file, or is lost. -/
def withFile (env : Env) (w : World) (fileName bytes : Bytes) : World :=
  match env.resolve (cStr fileName) with
  | none => w
  | some file =>
    if env.writable file then
      { w with
        files := Function.update w.files file (some (bytes.take (env.room file)))
        status := if (databaseFiles env).contains file then .overwritten else w.status }
    else w

theorem withFile_store (env : Env) (w : World) (fileName bytes : Bytes) :
    (withFile env w fileName bytes).store = w.store := by
  unfold withFile
  cases env.resolve (cStr fileName) with
  | none => rfl
  | some file =>
    simp only
    split <;> rfl

theorem withFile_sent (env : Env) (w : World) (fileName bytes : Bytes) :
    (withFile env w fileName bytes).sent = w.sent := by
  unfold withFile
  cases env.resolve (cStr fileName) with
  | none => rfl
  | some file =>
    simp only
    split <;> rfl

def withDraw (w : World) : World := { w with randomDraws := w.randomDraws + 1 }

section

variable (env : Env) (w : World)

theorem encryptAES_run (plaintext : Bytes) :
    (encryptAES env plaintext serverKey).run w =
      answeredFrom (sealed env w.randomDraws plaintext) (withDraw w) := by
  have hkey : ¬ serverKey.length ≠ 32 := fun h => h rfl
  have hget : (get : ServerM World).run w = .ok w w := rfl
  have hdraw : (modify (fun w : World => { w with randomDraws := w.randomDraws + 1 }) :
      ServerM PUnit).run w = .ok ⟨⟩ (withDraw w) := rfl
  rw [encryptAES, if_neg hkey, EStateM.run_bind, hget]
  simp only [EStateM.run_bind, hdraw, sealed]
  cases env.randBytes w.randomDraws with
  | none => rfl
  | some iv =>
    simp only
    cases env.evpEncrypt serverKey iv plaintext with
    | ok out =>
      simp only
      split <;> rfl
    | error stage => cases stage <;> rfl

theorem decryptAES_run (bytes : Bytes) :
    (decryptAES env bytes serverKey).run w = answeredFrom (unsealed env bytes) w := by
  have hkey : ¬ serverKey.length ≠ 32 := fun h => h rfl
  rw [decryptAES, if_neg hkey, unsealed]
  split
  · rfl
  · cases env.evpDecrypt serverKey (bytes.take 16) (bytes.drop 16) with
    | ok out =>
      simp only
      split <;> rfl
    | error stage => cases stage <;> rfl

theorem fileToBytes_run (fileName : Bytes) :
    (fileToBytes env fileName).run w = answeredFrom (contentOf env fileName w.files) w := by
  have hget : (get : ServerM World).run w = .ok w w := rfl
  rw [fileToBytes, EStateM.run_bind, hget]
  simp only [contentOf]
  cases env.resolve (cStr fileName) with
  | none => rfl
  | some file =>
    simp only [Option.bind_some]
    cases w.files file with
    | none => rfl
    | some content =>
      simp only [Option.map_some, readFrom]
      cases env.regular file with
      | false => rfl
      | true =>
        cases env.readable file with
        | false => rfl
        | true => rfl

theorem bytesToFile_run (fileName bytes : Bytes) :
    (bytesToFile env fileName bytes).run w = .ok () (withFile env w fileName bytes) := by
  unfold bytesToFile withFile
  cases env.resolve (cStr fileName) with
  | none => rfl
  | some file =>
    simp only
    split <;> rfl

/-- An upload is encrypted and written; whether the file opened is not asked. -/
theorem uploadAct_run (fileName fileData : Bytes) :
    (uploadAct env fileName fileData).run w =
      match sealed env w.randomDraws fileData with
      | .error e => .error e (withDraw w)
      | .ok bytes =>
        .ok (.fileUpload ⟨Error.Base.ok⟩) (withFile env (withDraw w) fileName bytes) := by
  rw [uploadAct, EStateM.run_bind, encryptAES_run]
  cases sealed env w.randomDraws fileData with
  | error e => rfl
  | ok bytes =>
    simp only [answeredFrom, EStateM.run_bind, bytesToFile_run]
    rfl

/-- The answer to a DOWNLOAD, by the files. -/
def downloadAnswer (env : Env) (fileName : Bytes) (files : ℕ → Option Bytes) :
    Except Exn Response := do
  let bytes ← contentOf env fileName files
  let decrypted ← unsealed env bytes
  return .fileDownload ⟨decrypted, Error.Base.ok⟩

theorem downloadAct_run (fileName : Bytes) :
    (downloadAct env fileName).run w = answeredFrom (downloadAnswer env fileName w.files) w := by
  rw [downloadAct, EStateM.run_bind, fileToBytes_run, downloadAnswer]
  cases contentOf env fileName w.files with
  | error e => rfl
  | ok bytes =>
    simp only [answeredFrom, EStateM.run_bind, decryptAES_run, ok_bind]
    cases unsealed env bytes <;> rfl

end

end Messenger.StoredFiles
