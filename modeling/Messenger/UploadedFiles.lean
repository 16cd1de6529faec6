import Messenger.RequestEffects
import Messenger.MalformedBodies

/-!
What an UPLOAD leaves behind. The handler answers OK once the data are encrypted: it asks
neither whether the file opened nor which file it was. So the data come back when the file
keeps what is written to it, and the tables stay when it is not one of the files they are in.
-/
namespace Messenger.UploadedFiles

open Outcomes ClientSession UserRepository HandlerActions HandlePacket ServerSteps TokenIdentity
  TokenRequests TableSteps StoredFiles RequestEffects

/-- An UPLOAD that decodes, on a live connection of a running server, with a valid token. -/
structure Uploads (env : Env) (w : World) (c : ConnId) (body : Bytes) (req : FileUploadRequest)
    (login : Bytes) : Prop where
  running : w.status = .running
  live : (w.sessions c).isSome
  decoded : deserialize FileUploadRequest body = .ok req
  authorised : tokenLogin env req.token w.store = some login

section

variable {env : Env} {w : World} {c : ConnId} {body login : Bytes} {req : FileUploadRequest}

theorem requestOf_upload (h : deserialize FileUploadRequest body = .ok req) :
    requestOf env .upload body = some ⟨req.token, fun e => .fileUpload ⟨e⟩,
      fun _ => uploadAct env req.fileName req.fileData⟩ := by
  simp only [requestOf, h]
  rfl

theorem Uploads.dispatched (h : Uploads env w c body req login) :
    (dispatch env c .upload body).run w =
      match sealed env w.randomDraws req.fileData with
      | .error e => .error e (withDraw { w with store := ticked w.store })
      | .ok bytes => .ok (some (.fileUpload ⟨Error.Base.ok⟩), none)
        (withFile env (withDraw { w with store := ticked w.store }) req.fileName bytes) := by
  rw [dispatch_request c (requestOf_upload h.decoded) w, answer, EStateM.run_bind,
    withAccount_some _ _ h.authorised, uploadAct_run]
  cases sealed env w.randomDraws req.fileData <;> rfl

/-- An upload that is encrypted is written, or lost, and answered OK. -/
theorem Uploads.step_of_sealed (h : Uploads env w c body req login) {bytes : Bytes}
    (hsealed : sealed env w.randomDraws req.fileData = .ok bytes) :
    w.step env (.packet c .upload body) =
      withAnswer (withFile env (withDraw { w with store := ticked w.store }) req.fileName bytes) c
        .upload (some (.fileUpload ⟨Error.Base.ok⟩)) := by
  have hdispatch := h.dispatched
  simp only [hsealed] at hdispatch
  exact step_of_handled h.running h.live (handlePacket_answered hdispatch)

/-- One that is not ends the server and writes nothing. -/
theorem Uploads.step_of_unsealed (h : Uploads env w c body req login) {e : Exn}
    (hsealed : sealed env w.randomDraws req.fileData = .error e) :
    w.step env (.packet c .upload body) =
      (withDraw { w with store := ticked w.store }).terminate := by
  have hdispatch := h.dispatched
  simp only [hsealed] at hdispatch
  simp only [World.step, h.running, h.live, and_self, if_true, World.receive,
    handlePacket_thrown hdispatch]

theorem Uploads.sealed_of_answered (h : Uploads env w c body req login)
    (hanswered : AnsweredWith env w c .upload body (.fileUpload ⟨Error.Base.ok⟩)) :
    ∃ bytes, sealed env w.randomDraws req.fileData = .ok bytes := by
  have hdispatch := h.dispatched
  cases hsealed : sealed env w.randomDraws req.fileData with
  | ok bytes => exact ⟨bytes, rfl⟩
  | error e =>
    simp only [hsealed] at hdispatch
    obtain ⟨w', before, hrun, -⟩ := hanswered
    cases hrun.symm.trans (handlePacket_thrown hdispatch)

end

/-- AES-256-CBC on "h" under the server's key and an IV of zeros, and on what it makes of it;
the names lead to files as `resolve` says. -/
def oneByte (resolve : Bytes → Option ℕ) : Env :=
  let secret : Bytes := [81, 208, 207, 50, 155, 197, 197, 92, 181, 249, 211, 100, 163, 21, 95, 75]
  { Env.plain with
    evpEncrypt := fun key iv data =>
      if key = serverKey ∧ iv = List.replicate 16 0 ∧ data = [104] then .ok ([], secret)
      else .error .update
    evpDecrypt := fun key iv data =>
      if key = serverKey ∧ iv = List.replicate 16 0 ∧ data = secret then .ok ([], [104])
      else .error .final
    resolve := resolve }

def messengerDb : Bytes := [109, 101, 115, 115, 101, 110, 103, 101, 114, 46, 100, 98]

/-- A disk with the database under its name and the file "f". -/
def disk : Env :=
  oneByte fun name => if name = messengerDb then some 0 else if name = [102] then some 1 else none

/-- "a" and "c" have registered on connections 0 and 1 and are friends. -/
def registered : World :=
  LabelledRuns.run (World.step disk)
    (World.initial disk fun file => if file = 0 then some [83, 81, 76] else none) twoFriends

def uploadBody (fileName : Bytes) : Bytes :=
  serialize (FileUploadRequest.mk [97, 97] fileName [104])

def downloadBody (fileName : Bytes) : Bytes :=
  serialize (FileDownloadRequest.mk [97, 97] fileName)

/-- The tables are where they were. -/
structure DatabaseSpared (env : Env) (w w' : World) : Prop where
  kept : w'.status ≠ .overwritten
  files : ∀ file ∈ databaseFiles env, w'.files file = w.files file
  tables : w'.store.db = w.store.db

/-- The data can be encrypted and the name leads to a file of the database that the server
may write. -/
def HitsDatabase (env : Env) (w : World) (req : FileUploadRequest) : Prop :=
  (∃ bytes, sealed env w.randomDraws req.fileData = .ok bytes) ∧
    ∃ file ∈ databaseFiles env, env.resolve (cStr req.fileName) = some file ∧
      env.writable file = true

theorem databaseSpared_withFile_iff (env : Env) {w : World} (hrunning : w.status ≠ .overwritten)
    (fileName bytes : Bytes) :
    DatabaseSpared env w (withFile env w fileName bytes) ↔
      ¬ ∃ file ∈ databaseFiles env, env.resolve (cStr fileName) = some file ∧
        env.writable file = true := by
  unfold withFile
  cases env.resolve (cStr fileName) with
  | none =>
    refine iff_of_true ⟨hrunning, fun _ _ => rfl, rfl⟩ ?_
    rintro ⟨file, -, hresolve, -⟩
    cases hresolve
  | some file =>
    simp only [Option.some.injEq]
    cases hwritable : env.writable file with
    | false =>
      simp only [Bool.false_eq_true, if_false]
      refine iff_of_true ⟨hrunning, fun _ _ => rfl, rfl⟩ ?_
      rintro ⟨file', -, rfl, hwritable'⟩
      cases hwritable.symm.trans hwritable'
    | true =>
      simp only [if_true]
      by_cases hdatabase : file ∈ databaseFiles env
      · refine iff_of_false (fun hspared => ?_) (not_not.mpr ⟨file, hdatabase, rfl, hwritable⟩)
        exact hspared.kept (if_pos (List.contains_iff_mem.mpr hdatabase))
      · refine iff_of_true ⟨?_, fun file' hfile' => ?_, rfl⟩ ?_
        · simpa only [List.contains_iff_mem, hdatabase, if_false] using hrunning
        · refine Function.update_of_ne (fun heq => ?_) _ _
          exact hdatabase (heq ▸ hfile')
        · rintro ⟨file', hfile', rfl, -⟩
          exact hdatabase hfile'

/-- In every state in which the server runs, an authorised UPLOAD leaves the tables and their
files alone exactly when its name does not lead to one of them that can be written. -/
theorem upload_spares_database_iff (env : Env) (w : World) (c : ConnId) (body login : Bytes)
    (req : FileUploadRequest) (h : Uploads env w c body req login) :
    DatabaseSpared env w (w.step env (.packet c .upload body)) ↔ ¬ HitsDatabase env w req := by
  unfold HitsDatabase
  cases hsealed : sealed env w.randomDraws req.fileData with
  | error e =>
    have hstopped : ServerStatus.terminated ≠ .overwritten := by decide
    rw [h.step_of_unsealed hsealed]
    refine iff_of_true ⟨hstopped, fun _ _ => rfl, rfl⟩ ?_
    rintro ⟨⟨bytes, hbytes⟩, -⟩
    cases hbytes
  | ok bytes =>
    have hstatus : w.status ≠ .overwritten := by
      rw [h.running]
      decide
    have hticked : (withDraw { w with store := ticked w.store }).status ≠ .overwritten := hstatus
    have hdrawn := databaseSpared_withFile_iff env hticked req.fileName bytes
    rw [h.step_of_sealed hsealed]
    have hsame : DatabaseSpared env w (withAnswer (withFile env
        (withDraw { w with store := ticked w.store }) req.fileName bytes) c .upload
          (some (.fileUpload ⟨Error.Base.ok⟩))) ↔
        DatabaseSpared env (withDraw { w with store := ticked w.store })
          (withFile env (withDraw { w with store := ticked w.store }) req.fileName bytes) :=
      ⟨fun hspared => ⟨hspared.kept, hspared.files, hspared.tables⟩,
        fun hspared => ⟨hspared.kept, hspared.files, hspared.tables⟩⟩
    rw [hsame, hdrawn]
    exact ⟨fun hnot hhits => hnot hhits.2, fun hnot hhits => hnot ⟨⟨bytes, rfl⟩, hhits⟩⟩

/-- An upload to "f" leaves the database alone, which is where it can be written. -/
theorem upload_spares_database_iff_other :
    databaseFiles disk = [0] ∧ disk.writable 0 = true ∧
      DatabaseSpared disk registered
        (registered.step disk (.packet 0 .upload (uploadBody [102]))) := by
  refine ⟨by decide, rfl, (upload_spares_database_iff disk registered 0 (uploadBody [102])
    [97] ⟨[97, 97], [102], [104]⟩ ⟨by decide, by decide, by decide, by decide⟩).mpr ?_⟩
  rintro ⟨-, file, hfile, hresolve, -⟩
  cases hresolve
  exact absurd hfile (by decide)

/-- An upload to "messenger.db" replaces the database. -/
theorem upload_replaces_database :
    World.Reachable disk registered ∧
      tokenLogin disk [97, 97] registered.store = some [97] ∧
      ¬ DatabaseSpared disk registered
        (registered.step disk (.packet 0 .upload (uploadBody messengerDb))) :=
  ⟨⟨_, _, rfl⟩, by decide, fun hspared => absurd hspared.kept (by decide)⟩

/-- The event is an UPLOAD to the file. -/
def WritesTo (env : Env) (file : ℕ) (e : Event) : Prop :=
  ∃ c body req, e = .packet c .upload body ∧ deserialize FileUploadRequest body = .ok req ∧
    env.resolve (cStr req.fileName) = some file

section

variable {env : Env} {w w' : World} {c : ConnId} {packetType : PacketType} {body login : Bytes}
  {file : ℕ}

theorem files_withFile {fileName bytes : Bytes} (h : env.resolve (cStr fileName) ≠ some file) :
    (withFile env w fileName bytes).files file = w.files file := by
  unfold withFile
  cases hresolve : env.resolve (cStr fileName) with
  | none => rfl
  | some other =>
    have hother : file ≠ other := by
      rintro rfl
      exact h hresolve
    simp only
    split
    · exact Function.update_of_ne hother _ _
    · rfl

theorem files_of_effect (h : Effect env packetType body login w w')
    (hwrites : ¬ WritesTo env file (.packet c packetType body)) :
    w'.files file = w.files file := by
  cases h with
  | none => rfl
  | posted req w' _ _ hposts =>
    obtain ⟨pushes, rfl, -⟩ := hposts
    rfl
  | drawn req _ _ => rfl
  | written req bytes htype hreq _ =>
    subst htype
    exact files_withFile fun hresolve => hwrites ⟨c, body, req, rfl, hreq, hresolve⟩
  | befriended call st notice w' _ hposts =>
    obtain ⟨pushes, rfl, -⟩ := hposts
    rfl
  | stored req sender recipient _ _ _ => rfl

theorem files_of_accountAction (h : AccountAction env packetType body w w') :
    w'.files = w.files := by
  cases h <;> rfl

theorem files_of_switched (h : Switched env c packetType body w w')
    (hwrites : ¬ WritesTo env file (.packet c packetType body)) :
    w'.files file = w.files file := by
  cases h with
  | none => rfl
  | accounts w' _ hcalls =>
    exact preserved_of_actions (P := fun w' : World => w'.files file = w.files file)
      (fun _ _ hcall hsame => by rw [files_of_accountAction hcall, hsame]) hcalls rfl
  | loggedOut req _ _ => rfl
  | lookedUp t e st _ _ => rfl
  | acted t login w' _ _ heffect =>
    have hfiles := files_of_effect heffect hwrites
    exact hfiles

/-- A file changes only when something is uploaded to it. -/
theorem files_step (e : Event) (hwrites : ¬ WritesTo env file e) :
    (w.step env e).files file = w.files file := by
  have hstep := step_stepping env w e
  generalize w.step env e = w' at hstep
  cases hstep with
  | idle e => rfl
  | restart => rfl
  | connect _ => rfl
  | packet c packetType body _ hlive =>
    refine receive_preserves (P := fun w' : World => w'.files file = w.files file) env hlive
      (fun _ _ _ h => h) (fun _ _ h => h) ?_ (fun _ h => h)
      (files_of_switched (dispatch_switched env c packetType body w) hwrites)
    intro w₁ r h
    cases r <;> exact h
  | disconnect c _ => rfl
  | cleanTokens _ => rfl

theorem files_run {events : List Event} (h : ∀ e ∈ events, ¬ WritesTo env file e) :
    (LabelledRuns.run (World.step env) w events).files file = w.files file :=
  LabelledRuns.invariant_events (P := fun w' : World => w'.files file = w.files file)
    (fun _ e hsame hwrites => (files_step e hwrites).trans hsame) rfl h

end

/-- What is assumed of RAND_bytes and of AES-256-CBC, where the lengths fit in an int. -/
structure CipherInverts (env : Env) : Prop where
  iv : ∀ draw iv, env.randBytes draw = some iv → iv.length = 16
  decrypts : ∀ iv data out last, iv.length = 16 → data.length < 2 ^ 31 →
    out.length + last.length < 2 ^ 31 → env.evpEncrypt serverKey iv data = .ok (out, last) →
    ∃ out' last', env.evpDecrypt serverKey iv (out ++ last) = .ok (out', last') ∧
      out' ++ last' = data

theorem cipherInverts_oneByte (resolve : Bytes → Option ℕ) : CipherInverts (oneByte resolve) where
  iv := by
    intro draw iv h
    cases h
    rfl
  decrypts := by
    intro iv data out last _ _ _ h
    simp only [oneByte] at h
    split at h
    · rename_i hinput
      obtain ⟨-, rfl, rfl⟩ := hinput
      cases h
      refine ⟨[], [104], ?_, rfl⟩
      simp only [oneByte, List.nil_append, and_self, if_true]
    · cases h

/-- A regular file, none of the database's own, that opens for writing and for reading and has
room for so many bytes. -/
structure Keeps (env : Env) (file size : ℕ) : Prop where
  regular : env.regular file = true
  other : file ∉ databaseFiles env
  writable : env.writable file = true
  readable : env.readable file = true
  room : size ≤ env.room file

/-- How the data of an upload can come back from the file that the name leads to. But for the
first way it takes a coincidence: what was there before, or what is left of the ciphertext,
decrypts to them. -/
inductive ComesBack (env : Env) (w : World) (req : FileUploadRequest) (file : ℕ) : Prop where
  | kept (bytes : Bytes) (hsealed : sealed env w.randomDraws req.fileData = .ok bytes)
      (hkeeps : Keeps env file bytes.length)
  | unwritten (content : Bytes) (hregular : env.regular file = true)
      (hwritable : env.writable file = false) (hheld : w.files file = some content)
      (hsame : unsealed env (readFrom env file content) = .ok req.fileData)
  | damaged (bytes : Bytes) (hregular : env.regular file = true)
      (hother : file ∉ databaseFiles env) (hwritable : env.writable file = true)
      (hsealed : sealed env w.randomDraws req.fileData = .ok bytes)
      (hlost : env.readable file = false ∨ env.room file < bytes.length)
      (hsame : unsealed env (readFrom env file (bytes.take (env.room file))) = .ok req.fileData)

/-- A DOWNLOAD that decodes, on a live connection of a running server, with a valid token. -/
structure Downloads (env : Env) (w : World) (c : ConnId) (body : Bytes)
    (req : FileDownloadRequest) (login : Bytes) : Prop where
  running : w.status = .running
  live : (w.sessions c).isSome
  decoded : deserialize FileDownloadRequest body = .ok req
  authorised : tokenLogin env req.token w.store = some login

section

variable {env : Env} {w : World} {c : ConnId} {body login : Bytes}

theorem Downloads.answered_iff {req : FileDownloadRequest} (h : Downloads env w c body req login)
    (data : Bytes) :
    AnsweredWith env w c .download body (.fileDownload ⟨data, Error.Base.ok⟩) ↔
      ∃ bytes, contentOf env req.fileName w.files = .ok bytes ∧ unsealed env bytes = .ok data := by
  have hrequest : requestOf env .download body = some ⟨req.token,
      fun e => .fileDownload ⟨[], e⟩, fun _ => downloadAct env req.fileName⟩ := by
    simp only [requestOf, h.decoded]
    rfl
  rw [answered_iff_outcome h.live hrequest h.authorised, downloadAct_run, downloadAnswer]
  simp only
  cases contentOf env req.fileName w.files with
  | error e =>
    refine iff_of_false (fun hok => ?_) (fun hbytes => ?_)
    · cases hok
    · obtain ⟨bytes, hbytes, -⟩ := hbytes
      cases hbytes
  | ok bytes =>
    cases hunsealed : unsealed env bytes with
    | error e =>
      refine iff_of_false (fun hok => ?_) (fun hbytes => ?_)
      · rw [ok_bind, hunsealed] at hok
        cases hok
      · obtain ⟨bytes', hbytes, hsame⟩ := hbytes
        cases hbytes
        cases hunsealed.symm.trans hsame
    | ok decrypted =>
      constructor
      · intro hok
        rw [ok_bind, hunsealed] at hok
        cases hok
        exact ⟨bytes, rfl, hunsealed⟩
      · rintro ⟨bytes', hbytes, hsame⟩
        cases hbytes
        cases hunsealed.symm.trans hsame
        rw [ok_bind, hunsealed]
        rfl

theorem unsealed_of_sealed (h : CipherInverts env) {draw : ℕ} {data bytes : Bytes}
    (hsmall : data.length < 2 ^ 31) (hsealed : sealed env draw data = .ok bytes) :
    unsealed env bytes = .ok data := by
  unfold sealed at hsealed
  cases hiv : env.randBytes draw with
  | none =>
    simp only [hiv] at hsealed
    cases hsealed
  | some iv =>
    simp only [hiv] at hsealed
    cases hencrypt : env.evpEncrypt serverKey iv data with
    | error stage =>
      simp only [hencrypt] at hsealed
      cases stage <;> cases hsealed
    | ok out =>
      obtain ⟨out, last⟩ := out
      simp only [hencrypt] at hsealed
      split at hsealed
      · rename_i hfits
        cases hsealed
        have hlength := h.iv draw iv hiv
        obtain ⟨out', last', hdecrypt, rfl⟩ :=
          h.decrypts iv data out last hlength hsmall hfits hencrypt
        have hlong : ¬ (iv ++ (out ++ last)).length < 16 := by
          rw [List.length_append, hlength]
          omega
        rw [List.length_append] at hsmall
        rw [unsealed, if_neg hlong, ← hlength, List.take_left, List.drop_left]
        simp only [hdecrypt, if_pos hsmall]
      · cases hsealed

theorem contentOf_ok_iff {fileName content : Bytes} {file : ℕ} {files : ℕ → Option Bytes}
    (hresolve : env.resolve (cStr fileName) = some file) :
    contentOf env fileName files = .ok content ↔
      env.regular file = true ∧
        ∃ held, files file = some held ∧ readFrom env file held = content := by
  simp only [contentOf, hresolve, Option.bind_some]
  cases files file with
  | none =>
    refine iff_of_false (fun h => ?_) (fun h => ?_)
    · cases h
    · obtain ⟨-, held, hheld, -⟩ := h
      cases hheld
  | some held =>
    simp only [Option.map_some, Option.some.injEq, exists_eq_left']
    cases env.regular file with
    | false => simp
    | true => simp

theorem comesBack_iff {req : FileUploadRequest} {bytes : Bytes} {file : ℕ}
    (hsealed : sealed env w.randomDraws req.fileData = .ok bytes)
    (hback : unsealed env bytes = .ok req.fileData)
    (hother : env.writable file = true → file ∉ databaseFiles env) :
    ComesBack env w req file ↔
      env.regular file = true ∧ ∃ held,
        (if env.writable file then some (bytes.take (env.room file)) else w.files file) =
          some held ∧ unsealed env (readFrom env file held) = .ok req.fileData := by
  constructor
  · intro h
    cases h with
    | kept bytes' hsealed' hkeeps =>
      cases hsealed.symm.trans hsealed'
      refine ⟨hkeeps.regular, bytes, ?_, ?_⟩
      · rw [if_pos hkeeps.writable, List.take_of_length_le hkeeps.room]
      · rwa [readFrom, if_pos hkeeps.readable]
    | unwritten content hregular hwritable hheld hsame =>
      refine ⟨hregular, content, ?_, hsame⟩
      rwa [hwritable, if_neg Bool.false_ne_true]
    | damaged bytes' hregular _ hwritable hsealed' _ hsame =>
      cases hsealed.symm.trans hsealed'
      exact ⟨hregular, _, if_pos hwritable, hsame⟩
  · rintro ⟨hregular, held, hheld, hsame⟩
    cases hwritable : env.writable file with
    | false =>
      rw [hwritable, if_neg Bool.false_ne_true] at hheld
      exact .unwritten held hregular hwritable hheld hsame
    | true =>
      rw [if_pos hwritable] at hheld
      cases hheld
      have hdatabase := hother hwritable
      by_cases hroom : bytes.length ≤ env.room file
      · cases hreadable : env.readable file with
        | true => exact .kept bytes hsealed ⟨hregular, hdatabase, hwritable, hreadable, hroom⟩
        | false =>
          exact .damaged bytes hregular hdatabase hwritable hsealed (Or.inl hreadable) hsame
      · exact .damaged bytes hregular hdatabase hwritable hsealed
          (Or.inr (Nat.lt_of_not_le hroom)) hsame

variable {req : FileUploadRequest}

/-- What the file of an upload holds afterwards. -/
theorem Uploads.files_step (h : Uploads env w c body req login)
    {bytes : Bytes} (hsealed : sealed env w.randomDraws req.fileData = .ok bytes) {file : ℕ}
    (hresolve : env.resolve (cStr req.fileName) = some file) :
    (w.step env (.packet c .upload body)).files file =
      if env.writable file then some (bytes.take (env.room file)) else w.files file := by
  rw [h.step_of_sealed hsealed]
  change (withFile env (withDraw { w with store := ticked w.store }) req.fileName bytes).files
    file = _
  simp only [withFile, hresolve]
  split
  · exact Function.update_self _ _ _
  · rfl

/-- Once the tables are overwritten, no server runs on them in the model. -/
theorem overwritten_run (h : w.status = .overwritten) (events : List Event) :
    (LabelledRuns.run (World.step env) w events).status = .overwritten := by
  refine LabelledRuns.invariant (P := fun w : World => w.status = .overwritten)
    (fun w e hw => ?_) h events
  have hstopped : w.status ≠ .running := by
    rw [hw]
    decide
  cases e with
  | restart => rwa [World.step, if_pos hw]
  | connect => rwa [World.step, if_neg hstopped]
  | packet c packetType body => rwa [World.step, if_neg fun hready => hstopped hready.1]
  | disconnect c => rwa [World.step, if_neg hstopped]
  | cleanTokens => rwa [World.step, if_neg hstopped]

/-- So an upload that a later DOWNLOAD can ask for has not gone to one of the database's files. -/
theorem Uploads.spared_of_downloads (h : Uploads env w c body req login) {bytes : Bytes}
    (hsealed : sealed env w.randomDraws req.fileData = .ok bytes) {file : ℕ}
    (hresolve : env.resolve (cStr req.fileName) = some file) {events : List Event}
    {c' : ConnId} {body' login' : Bytes} {req' : FileDownloadRequest}
    (hdownload : Downloads env (LabelledRuns.run (World.step env)
      (w.step env (.packet c .upload body)) events) c' body' req' login')
    (hwritable : env.writable file = true) : file ∉ databaseFiles env := by
  intro hdatabase
  have hlost : (w.step env (.packet c .upload body)).status = .overwritten := by
    rw [h.step_of_sealed hsealed]
    change (withFile env (withDraw { w with store := ticked w.store }) req.fileName bytes).status
      = _
    simp only [withFile, hresolve, if_pos hwritable]
    exact if_pos (List.contains_iff_mem.mpr hdatabase)
  have hrunning := hdownload.running
  rw [overwritten_run hlost events] at hrunning
  cases hrunning

end

/-- After an UPLOAD that was answered OK, and any run without another one to the same file, an
authorised DOWNLOAD is answered with the data exactly when they come back from the file. -/
theorem download_returns_upload_iff (env : Env) (hcipher : CipherInverts env) (w : World)
    (c : ConnId) (body login : Bytes) (req : FileUploadRequest)
    (hupload : Uploads env w c body req login)
    (hanswered : AnsweredWith env w c .upload body (.fileUpload ⟨Error.Base.ok⟩))
    (hsmall : req.fileData.length < 2 ^ 31) (events : List Event)
    (hothers : ∀ file, env.resolve (cStr req.fileName) = some file →
      ∀ e ∈ events, ¬ WritesTo env file e)
    (w' : World)
    (hrun : LabelledRuns.run (World.step env) (w.step env (.packet c .upload body)) events = w')
    (c' : ConnId) (body' login' : Bytes) (req' : FileDownloadRequest)
    (hdownload : Downloads env w' c' body' req' login') (hname : req'.fileName = req.fileName) :
    AnsweredWith env w' c' .download body' (.fileDownload ⟨req.fileData, Error.Base.ok⟩) ↔
      ∃ file, env.resolve (cStr req.fileName) = some file ∧ ComesBack env w req file := by
  obtain ⟨bytes, hsealed⟩ := hupload.sealed_of_answered hanswered
  have hback := unsealed_of_sealed hcipher hsmall hsealed
  rw [hdownload.answered_iff, hname]
  cases hresolve : env.resolve (cStr req.fileName) with
  | none =>
    refine iff_of_false ?_ ?_
    · rintro ⟨content, hcontent, -⟩
      simp only [contentOf, hresolve, Option.bind_none] at hcontent
      cases hcontent
    · rintro ⟨file, hfile, -⟩
      cases hfile
  | some file =>
    subst hrun
    have hother : env.writable file = true → file ∉ databaseFiles env :=
      hupload.spared_of_downloads hsealed hresolve hdownload
    simp only [Option.some.injEq, exists_eq_left', contentOf_ok_iff hresolve,
      files_run (hothers file hresolve), hupload.files_step hsealed hresolve,
      comesBack_iff hsealed hback hother]
    constructor
    · rintro ⟨content, ⟨hregular, held, hheld, rfl⟩, hsame⟩
      exact ⟨hregular, held, hheld, hsame⟩
    · rintro ⟨hregular, held, hheld, hsame⟩
      exact ⟨_, ⟨hregular, held, hheld, rfl⟩, hsame⟩

/-- "c" reads its list of friends, writes to "a", uploads to "g" and is gone. -/
def meanwhile : List Event :=
  [.packet 1 .friendList (serialize (FriendListRequest.mk [97, 97, 97, 97])), messageEvent,
    .packet 1 .upload (serialize (FileUploadRequest.mk [97, 97, 97, 97] [103] [104])),
    .disconnect 1]

/-- "a" uploads "h" to "f", and after all that gets it back. -/
theorem download_returns_upload_iff_meanwhile :
    AnsweredWith disk
      (LabelledRuns.run (World.step disk)
        (registered.step disk (.packet 0 .upload (uploadBody [102]))) meanwhile) 0
      .download (downloadBody [102]) (.fileDownload ⟨[104], Error.Base.ok⟩) := by
  refine (download_returns_upload_iff disk (cipherInverts_oneByte _) registered 0
    (uploadBody [102]) [97] ⟨[97, 97], [102], [104]⟩
    ⟨by decide, by decide, by decide, by decide⟩ ⟨_, _, rfl, rfl⟩ (by decide) meanwhile ?_ _ rfl 0
    (downloadBody [102]) [97] ⟨[97, 97], [102]⟩ ⟨by decide, by decide, by decide, by decide⟩
    rfl).mpr ⟨1, rfl, .kept _ rfl ⟨rfl, by decide, rfl, rfl, by decide⟩⟩
  rintro file hfile e he ⟨c, body, req, rfl, hreq, hresolve⟩
  cases hfile
  simp only [meanwhile, messageEvent, List.mem_cons, List.not_mem_nil, or_false] at he
  rcases he with he | he | he | he
  · cases he
  · cases he
  · cases he
    cases hreq
    cases hresolve
  · cases he

/-- An upload to "g", which does not open, is answered OK, and the download that follows is not
answered. -/
theorem lost_upload_answered :
    CipherInverts disk ∧ World.Reachable disk registered ∧
      AnsweredWith disk registered 0 .upload (uploadBody [103])
        (.fileUpload ⟨Error.Base.ok⟩) ∧
      tokenLogin disk [97, 97] (registered.step disk
        (.packet 0 .upload (uploadBody [103]))).store = some [97] ∧
      ¬ AnsweredWith disk
        (registered.step disk (.packet 0 .upload (uploadBody [103]))) 0
        .download (downloadBody [103]) (.fileDownload ⟨[104], Error.Base.ok⟩) := by
  refine ⟨cipherInverts_oneByte _, ⟨_, _, rfl⟩, ⟨_, _, rfl, rfl⟩, by decide, ?_⟩
  rintro ⟨w', before, hrun, -⟩
  cases hrun

end Messenger.UploadedFiles
