import Messenger.TokenLifetimes

/-!
What a login and a password open. The users table lists the registrations that returned
OK, one row each, in order; a row answers to the password of its registration and to no
other, because hashes and salts hold no NUL and hashing does not collide.
-/
namespace Messenger.Registrations

open KeyedTables Outcomes UserRepository AccountCalls TokenLifetimes

/-- The registrations of a run that returned OK. -/
def registrations (env : Env) : Store → List TimedCall → List (Bytes × Bytes)
  | _, [] => []
  | st, c :: rest => (registered env st c).toList ++ registrations env (step env st c) rest

theorem registrations_append (env : Env) (st : Store) (before after : List TimedCall) :
    registrations env st (before ++ after) = registrations env st before ++
      registrations env (LabelledRuns.run (step env) st before) after := by
  induction before generalizing st with
  | nil => rfl
  | cons c rest ih =>
    simp only [List.cons_append, registrations, ih, List.append_assoc, LabelledRuns.run_cons]

/-- The sixteen digits. -/
def hexDigits (i : Fin 16) : UInt8 :=
  [48, 49, 50, 51, 52, 53, 54, 55, 56, 57, 97, 98, 99, 100, 101, 102].get i

/-- The digits of a byte, as naturals: what hexByte computes digit by digit. -/
theorem hexByte_eq (b : UInt8) :
    ∃ high low : Fin 16, b.toNat = 16 * high.val + low.val ∧
      hexByte b = [hexDigits high, hexDigits low] := by
  have hb := b.toNat_lt
  have digit : ∀ n : UInt8, ∀ h : n.toNat < 16,
      (if n < 10 then 48 + n else 87 + n) = hexDigits ⟨n.toNat, h⟩ := by
    intro n h
    have hall : ∀ i : Fin 16, (if UInt8.ofNat i.val < 10 then 48 + UInt8.ofNat i.val
        else 87 + UInt8.ofNat i.val) = hexDigits i := by decide
    have hn := hall ⟨n.toNat, h⟩
    rwa [UInt8.ofNat_toNat] at hn
  have hhigh : (b / 16).toNat < 16 := by
    rw [UInt8.toNat_div]
    exact Nat.div_lt_of_lt_mul hb
  have hlow : (b % 16).toNat < 16 := by
    rw [UInt8.toNat_mod]
    exact Nat.mod_lt _ (by decide)
  refine ⟨⟨_, hhigh⟩, ⟨_, hlow⟩, ?_, ?_⟩
  · simp only [UInt8.toNat_div, UInt8.toNat_mod]
    exact (Nat.div_add_mod b.toNat 16).symm
  · simp only [hexByte, digit _ hhigh, digit _ hlow]

theorem hexByte_nulFree (b : UInt8) : 0 ∉ hexByte b := by
  have digit : ∀ i, hexDigits i ≠ 0 := by decide
  obtain ⟨high, low, -, h⟩ := hexByte_eq b
  simp [h, (digit high).symm, (digit low).symm]

theorem hexByte_injective : Function.Injective hexByte := by
  have digit : ∀ i j, hexDigits i = hexDigits j → i = j := by decide
  intro a b hab
  obtain ⟨high, low, ha, hexa⟩ := hexByte_eq a
  obtain ⟨high', low', hb, hexb⟩ := hexByte_eq b
  rw [hexa, hexb, List.cons.injEq, List.cons.injEq] at hab
  rw [digit _ _ hab.1, digit _ _ hab.2.1] at ha
  exact UInt8.toNat_inj.mp (ha.trans hb.symm)

theorem sha256_nulFree (env : Env) (input : Bytes) : 0 ∉ sha256 env input := by
  intro h
  obtain ⟨b, -, hb⟩ := List.mem_flatMap.mp h
  exact hexByte_nulFree b hb

/-- A row as registerUser writes it. -/
structure Records (env : Env) (u : UserRow) (registration : Bytes × Bytes) : Prop where
  login : u.login = registration.1
  salt : 0 ∉ u.salt
  password : u.password = sha256 env (registration.2 ++ u.salt)

/-- The users table lists the registrations, and no login twice. -/
structure Listed (env : Env) (st : Store) (registrations : List (Bytes × Bytes)) : Prop where
  rows : List.Forall₂ (Records env) st.db.users.rows registrations
  logins : (registrations.map Prod.fst).Nodup

theorem map_login {env : Env} {rows : List UserRow} {registrations : List (Bytes × Bytes)}
    (h : List.Forall₂ (Records env) rows registrations) :
    rows.map UserRow.login = registrations.map Prod.fst := by
  induction h with
  | nil => rfl
  | cons hrow _ ih => rw [List.map_cons, List.map_cons, ih, hrow.login]

theorem listed_step (env : Env) {st : Store} {before : List (Bytes × Bytes)} (c : TimedCall)
    (h : Listed env st before) :
    Listed env (step env st c) (before ++ (registered env st c).toList) := by
  have heffect := step_effect env st c
  generalize step env st c = st' at heffect
  have same : st'.db.users = st.db.users → registered env st c = none →
      Listed env st' (before ++ (registered env st c).toList) := by
    intro husers hnone
    rw [hnone, Option.toList_none, List.append_nil]
    exact ⟨husers ▸ h.rows, h.logins⟩
  cases heffect with
  | same _ husers _ hregistered _ _ => exact same husers hregistered
  | registered login password _ hfree hregistered =>
    rw [hregistered, Option.toList_some]
    constructor
    · refine List.rel_append h.rows (.cons ⟨rfl, env.uuid_nulFree _, rfl⟩ .nil)
    · rw [List.map_append, ← map_login h.rows]
      refine List.nodup_append.mpr ⟨map_login h.rows ▸ h.logins, List.nodup_singleton _, ?_⟩
      intro a ha b hb hab
      obtain ⟨u, hu, rfl⟩ := List.mem_map.mp ha
      have hno := List.find?_eq_none.mp hfree u hu
      rw [List.map_singleton, List.mem_singleton] at hb
      simp [hab, hb] at hno
  | issued _ _ _ hcall _ _ _ _ => exact same rfl (by simp only [registered, hcall])
  | expired _ _ hcall _ _ => exact same rfl (by simp only [registered, hcall])
  | loggedOut _ hcall => exact same rfl (by simp only [registered, hcall])
  | cleaned _ hcall husers _ => exact same husers (by simp only [registered, hcall])

theorem listed_run (env : Env) {st : Store} (hnew : st.db.users.rows = [])
    (calls : List TimedCall) :
    Listed env (LabelledRuns.run (step env) st calls) (registrations env st calls) := by
  induction calls using List.reverseRecOn with
  | nil => exact ⟨by rw [LabelledRuns.run_nil, hnew]; exact .nil, List.nodup_nil⟩
  | append_singleton calls d ih =>
    have hlast := listed_step env d ih
    rw [LabelledRuns.run_append, registrations_append]
    simpa only [registrations, List.append_nil, LabelledRuns.run_cons, LabelledRuns.run_nil]
      using hlast

/-- The password does not hash, with the salt of the login, to the hash of another password
that the login was registered with. -/
def NoCollision (env : Env) (st : Store) (registrations : List (Bytes × Bytes))
    (login password : Bytes) : Prop :=
  ∀ u ∈ st.db.users.rows, u.login = login → ∀ r ∈ registrations, r.1 = login →
    sha256 env (password ++ u.salt) = sha256 env (r.2 ++ u.salt) → password = r.2

instance (env : Env) (st : Store) (registrations : List (Bytes × Bytes))
    (login password : Bytes) : Decidable (NoCollision env st registrations login password) :=
  inferInstanceAs (Decidable (∀ u ∈ st.db.users.rows, u.login = login → ∀ r ∈ registrations,
    r.1 = login → sha256 env (password ++ u.salt) = sha256 env (r.2 ++ u.salt) → password = r.2))

theorem noCollision_of_injective {env : Env} (hsha : Function.Injective (sha256 env))
    (st : Store) (registrations : List (Bytes × Bytes)) (login password : Bytes) :
    NoCollision env st registrations login password :=
  fun _ _ _ _ _ _ hsame => List.append_cancel_right (hsha hsame)

/-- A password opens a login exactly when it was registered with it. -/
theorem verifyPassword_iff {env : Env} {st : Store} {registrations : List (Bytes × Bytes)}
    (h : Listed env st registrations) {login password : Bytes}
    (hsha : NoCollision env st registrations login password) :
    verifyPassword env login password st = true ↔ (login, password) ∈ registrations := by
  have opens : ∀ u r, Records env u r →
      (sha256 env (password ++ getText u.salt) = getText u.password ↔
        sha256 env (password ++ u.salt) = sha256 env (r.2 ++ u.salt)) := by
    intro u r hrecords
    rw [(getText_eq_self_iff _).mpr hrecords.salt, hrecords.password,
      (getText_eq_self_iff _).mpr (sha256_nulFree env _)]
  have hforall := List.forall₂_iff_zip.mp h.rows
  constructor
  · intro hpw
    obtain ⟨u, hu, hhash⟩ := findLogin_of_verifyPassword hpw
    obtain ⟨i, hi, rfl⟩ := List.getElem_of_mem (List.mem_of_find?_eq_some hu)
    have hir : i < registrations.length := hforall.1 ▸ hi
    have hrecords : Records env (st.db.users.rows[i]) (registrations[i]) := by
      refine hforall.2 (List.mem_iff_getElem.mpr ⟨i, by simp [hi, hir], ?_⟩)
      simp
    have hlogin := Database.login_of_findLogin hu
    have hregistered : (registrations[i]).1 = login := hrecords.login ▸ hlogin
    have hpassword : password = (registrations[i]).2 := hsha _ (List.getElem_mem hi) hlogin _
      (List.getElem_mem hir) hregistered ((opens _ _ hrecords).mp hhash)
    rw [← hregistered, hpassword]
    exact List.getElem_mem hir
  · intro hmem
    obtain ⟨i, hir, hi⟩ := List.getElem_of_mem hmem
    have hiu : i < st.db.users.rows.length := hforall.1.symm ▸ hir
    have hrecords : Records env (st.db.users.rows[i]) (registrations[i]) := by
      refine hforall.2 (List.mem_iff_getElem.mpr ⟨i, by simp [hiu, hir], ?_⟩)
      simp
    rw [hi] at hrecords
    have hu : st.db.findLogin login = some (st.db.users.rows[i]) := by
      have hrow : st.db.users.rows[i] ∈ st.db.users.rows := List.getElem_mem hiu
      cases hfind : st.db.findLogin login with
      | none =>
        have hno := List.find?_eq_none.mp hfind _ hrow
        simp [hrecords.login] at hno
      | some v =>
        have hv : v ∈ st.db.users.rows := List.mem_of_find?_eq_some hfind
        have hnodup : (st.db.users.rows.map UserRow.login).Nodup := by
          rw [map_login h.rows]
          exact h.logins
        have hsame : v.login = (st.db.users.rows[i]).login := by
          rw [Database.login_of_findLogin hfind, hrecords.login]
        rw [List.inj_on_of_nodup_map hnodup hv hrow hsame]
    unfold verifyPassword
    rw [hu]
    exact beq_iff_eq.mpr ((opens _ _ hrecords).mpr rfl)

/-- In every run no login is registered twice; the next verifyUser returns a token exactly
for a login and password that were registered together, and the session it opens is that
of the login's own row. -/
theorem verifyUser_iff_registered (env : Env) (st : Store)
    (husers : st.db.users.rows = []) (hsessions : st.db.sessions = [])
    (calls : List TimedCall) (login password : Bytes) (reading draw : ℕ)
    (hsha : NoCollision env (LabelledRuns.run (step env) st calls)
      (registrations env st calls) login password)
    (hfresh : env.uuid draw ∉ generatedTokens env st calls) :
    let now := LabelledRuns.run (step env) st calls
    ((registrations env st calls).map Prod.fst).Nodup ∧
      ∃ r st', (verifyUser env login password).run (given now reading draw) = .ok r st' ∧
        ((∃ token, r = .ok token) ↔ (login, password) ∈ registrations env st calls) ∧
        ∀ token, r = .ok token → ∃ u, st'.db.findLogin login = some u ∧
          st'.db.sessions = now.db.sessions ++ [⟨token, u.id, env.clock reading⟩] := by
  intro now
  have hlisted : Listed env now (registrations env st calls) := listed_run env husers calls
  have hiff := verifyPassword_iff hlisted hsha
  refine ⟨hlisted.logins, ?_⟩
  rcases verifyUser_cases env login password (given now reading draw) with
    ⟨hpw, hrun⟩ | ⟨hpw, -⟩
  · refine ⟨_, _, hrun, ⟨nofun, fun hmem => ?_⟩, nofun⟩
    have hopen : verifyPassword env login password now = true := hiff.mpr hmem
    cases hopen.symm.trans hpw
  · have hnone : (given now reading draw).db.findToken (env.uuid draw) = none := by
      refine List.find?_eq_none.mpr fun s hs hsame => hfresh ?_
      have hdrawn := sessions_generated env hsessions calls s hs
      rwa [beq_iff_eq.mp hsame] at hdrawn
    obtain ⟨u, hu, hrun⟩ := verifyUser_run (given now reading draw) hpw hnone
    refine ⟨_, _, hrun, ⟨fun _ => hiff.mp hpw, fun _ => ⟨_, rfl⟩⟩, ?_⟩
    intro token htoken
    cases htoken
    exact ⟨u, hu, rfl⟩

theorem flatMap_hexByte_injective : Function.Injective (List.flatMap hexByte) := by
  intro a
  induction a with
  | nil =>
    intro b h
    cases b with
    | nil => rfl
    | cons y ys => simp [hexByte] at h
  | cons x xs ih =>
    intro b h
    cases b with
    | nil => simp [hexByte] at h
    | cons y ys =>
      have hlength : (hexByte x).length = (hexByte y).length := rfl
      obtain ⟨hhead, htail⟩ := List.append_inj h hlength
      rw [hexByte_injective hhead, ih htail]

theorem length_digestBytes (n : ℕ) : (digestBytes n).length = 32 := by
  rw [digestBytes, List.length_map, List.length_range]

/-- A sample is as long as a digest, and anything else is longer. -/
theorem sampledDigest_cases (input : Bytes) :
    (∃ n, (input, n) ∈ sha256Samples ∧ sampledDigest input = digestBytes n) ∨
      sampledDigest input = List.replicate 33 0 ++ input := by
  unfold sampledDigest
  cases hfind : sha256Samples.find? (fun sample => sample.1 == input) with
  | none => exact Or.inr rfl
  | some sample =>
    obtain rfl : sample.1 = input := by simpa using List.find?_some hfind
    exact Or.inl ⟨sample.2, List.mem_of_find?_eq_some hfind, rfl⟩

theorem sampledDigest_injective : Function.Injective sampledDigest := by
  have apart : ∀ n input, digestBytes n ≠ List.replicate 33 0 ++ input := by
    intro n input h
    have hlength := congrArg List.length h
    rw [length_digestBytes, List.length_append, List.length_replicate] at hlength
    omega
  have samples : ∀ a ∈ sha256Samples, ∀ b ∈ sha256Samples,
      digestBytes a.2 = digestBytes b.2 → a.1 = b.1 := by decide +kernel
  intro a b h
  rcases sampledDigest_cases a with ⟨n, ha, hdigest⟩ | hdigest
  · rcases sampledDigest_cases b with ⟨k, hb, hdigest'⟩ | hdigest'
    · rw [hdigest, hdigest'] at h
      exact samples _ ha _ hb h
    · rw [hdigest, hdigest'] at h
      exact absurd h (apart n b)
  · rcases sampledDigest_cases b with ⟨k, hb, hdigest'⟩ | hdigest'
    · rw [hdigest, hdigest'] at h
      exact absurd h.symm (apart k a)
    · rw [hdigest, hdigest'] at h
      exact List.append_cancel_left h

theorem sha256_plain_injective : Function.Injective (sha256 Env.plain) :=
  flatMap_hexByte_injective.comp sampledDigest_injective

/-- "a" registers with "p"; a second registration with "q" fails and changes nothing. -/
def registeredTwice : List TimedCall :=
  [⟨.registerUser [97] [112], 0, 0⟩, ⟨.registerUser [97] [113], 1, 1⟩]

theorem verifyUser_iff_registered_twice :
    ∃ r st', (verifyUser Env.plain [97] [112]).run
        (given (LabelledRuns.run (step Env.plain) newStore registeredTwice) 2 2) = .ok r st' ∧
      ∃ token, r = .ok token := by
  obtain ⟨-, r, st', hrun, hiff, -⟩ := verifyUser_iff_registered Env.plain newStore rfl rfl
    registeredTwice [97] [112] 2 2 (by decide +kernel) (by decide)
  exact ⟨r, st', hrun, hiff.mpr (by decide)⟩

end Messenger.Registrations
