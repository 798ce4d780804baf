import BookingPlatform.Accounts

/-!
# Which passwords log in

The schema counts characters and admits up to 128 of them; bcrypt counts UTF-8 bytes and
takes 72. Up to its version 4 it ignores the rest of a longer password, from version 5 on
it refuses to hash one.
-/

namespace BookingPlatform

set_option autoImplicit false

open Transact Transact.Program

section Encoding

theorem encode_eq (s : String) : encode s = s.toList.flatMap String.utf8EncodeChar := by
  obtain ⟨l, rfl⟩ : ∃ l, s = String.ofList l := ⟨s.toList, by simp⟩
  simp [encode, List.utf8Encode]

theorem encode_injective {p q : String} (h : encode p = encode q) : p = q := by
  apply String.toByteArray_inj.mp
  apply ByteArray.ext
  exact Array.toList_inj.mp h

theorem encode_append (p q : String) : encode (p ++ q) = encode p ++ encode q := by
  simp [encode_eq]

theorem length_le_encode (s : String) : s.length ≤ (encode s).length := by
  rw [encode_eq, ← String.length_toList]
  induction s.toList with
  | nil => simp
  | cons c cs ih =>
    have hc := c.utf8Size_pos
    simp only [List.flatMap_cons, List.length_append, List.length_cons,
      String.length_utf8EncodeChar]
    omega

/-- What bcrypt takes of a password. -/
def bcryptBytes (password : String) : List UInt8 := (encode password).take 72

theorem bcryptBytes_short {p q : String} (hp : (encode p).length < 72)
    (h : bcryptBytes q = bcryptBytes p) : q = p := by
  have hlength := congrArg List.length h
  simp only [bcryptBytes, List.length_take] at hlength
  have hq : (encode q).length < 72 := by omega
  apply encode_injective
  rwa [bcryptBytes, bcryptBytes, List.take_of_length_le (by omega),
    List.take_of_length_le (by omega)] at h

/-- Every password that fills the 72 bytes shares them with another one of 128 characters at
most: itself and one more, or itself without its last. -/
theorem bcryptBytes_long {p : String} (hp : 72 ≤ (encode p).length) (hmax : p.length ≤ 128) :
    ∃ q, q ≠ p ∧ q.length ≤ 128 ∧ bcryptBytes q = bcryptBytes p := by
  by_cases hroom : p.length < 128
  · refine ⟨p ++ "a", fun h => ?_, ?_, ?_⟩
    · have hlength := congrArg String.length h
      simp at hlength
    · rw [String.length_append]
      exact hroom
    · rw [bcryptBytes, encode_append, List.take_append_of_le_length hp]
      rfl
  · have hlong : p.toList.length = 128 := by
      rw [String.length_toList]
      omega
    obtain ⟨cs, c, hcs⟩ : ∃ cs c, p.toList = cs ++ [c] := by
      rcases List.eq_nil_or_concat p.toList with h | ⟨cs, c, h⟩
      · simp [h] at hlong
      · exact ⟨cs, c, by simpa using h⟩
    have hp' : p = String.ofList cs ++ String.singleton c := by
      apply String.toList_injective
      simp [hcs]
    have hshort : cs.length = 127 := by
      rw [hcs] at hlong
      simpa using hlong
    have hbytes : 72 ≤ (encode (String.ofList cs)).length := by
      have hle := length_le_encode (String.ofList cs)
      rw [String.length_ofList] at hle
      omega
    refine ⟨String.ofList cs, fun h => ?_, ?_, ?_⟩
    · have hlength := congrArg (fun v => v.toList.length) h
      simp only [String.toList_ofList] at hlength
      omega
    · rw [String.length_ofList]
      omega
    · rw [hp', bcryptBytes, bcryptBytes, encode_append, List.take_append_of_le_length hbytes]

end Encoding

section Bcrypt

/-- Up to version 4: what comes after the first 72 bytes does not count. -/
structure Bcrypt.Truncates (bcrypt : Bcrypt) : Prop where
  hashpw : ∀ password salt, ∃ hashed, bcrypt.hashpw password salt = .ok hashed
  checkpw : ∀ password salt hashed, bcrypt.hashpw password salt = .ok hashed →
    ∀ plain, bcrypt.checkpw plain hashed = .ok (decide (plain.take 72 = password.take 72))

/-- From version 5 on: more than 72 bytes are a ValueError. -/
structure Bcrypt.Refuses (bcrypt : Bcrypt) : Prop where
  hashpw : ∀ password salt, password.length ≤ 72 →
    ∃ hashed, bcrypt.hashpw password salt = .ok hashed
  hashpwLong : ∀ password salt, 72 < password.length →
    ∃ message, bcrypt.hashpw password salt = .error (.valueError message)
  checkpw : ∀ password salt hashed, bcrypt.hashpw password salt = .ok hashed →
    ∀ plain, plain.length ≤ 72 → bcrypt.checkpw plain hashed = .ok (decide (plain = password))
  checkpwLong : ∀ plain hashed, 72 < plain.length →
    ∃ message, bcrypt.checkpw plain hashed = .error (.valueError message)

variable {bcrypt : Bcrypt} {salt : bcrypt.Salt} {hashed : String}

theorem verifyPassword_truncates (h : bcrypt.Truncates) {password : String}
    (hhashed : bcrypt.hashpw (encode password) salt = .ok hashed) (plain : String) :
    verifyPassword bcrypt plain hashed =
      .ok (decide (bcryptBytes plain = bcryptBytes password)) := by
  unfold verifyPassword
  rw [h.checkpw _ _ _ hhashed]
  rfl

theorem verifyPassword_refuses (h : bcrypt.Refuses) {password : String}
    (hhashed : bcrypt.hashpw (encode password) salt = .ok hashed) (plain : String) :
    verifyPassword bcrypt plain hashed = .ok (decide (plain = password)) := by
  have hshort : (encode password).length ≤ 72 := by
    by_contra hlong
    obtain ⟨message, hmessage⟩ := h.hashpwLong (encode password) salt (by omega)
    rw [hmessage] at hhashed
    cases hhashed
  unfold verifyPassword
  by_cases hplain : (encode plain).length ≤ 72
  · rw [h.checkpw _ _ _ hhashed _ hplain]
    by_cases heq : plain = password
    · simp [heq]
    · have hne : encode plain ≠ encode password := fun h' => heq (encode_injective h')
      simp [heq, hne]
  · obtain ⟨message, hmessage⟩ := h.checkpwLong (encode plain) hashed (by omega)
    rw [hmessage]
    have hne : plain ≠ password := fun heq => hplain (heq ▸ hshort)
    simp [hne]

end Bcrypt

section Login
variable {amb : Ambient} {s : Store} {userIn : UserRegister}

/-- A registration under an address that nobody's is equal to goes through. -/
theorem registerUser_ok (amb : Ambient) {hashedPw : String} (hlaws : amb.text.Lawful)
    (hnormal : amb.text.normalize userIn.email = userIn.email)
    (hfree : ∀ u ∈ s.users, amb.sqlLower u.email ≠ userIn.email)
    (hnew : ∀ u ∈ s.users, u.id ≠ amb.uuid4)
    (hhashed : amb.hashpw userIn.password = .ok hashedPw) :
    ∃ t : Store, t.toTables = { s.toTables with
        users := s.users ++ [newUser amb userIn hashedPw] } ∧
      (registerUser amb userIn).exec (.fresh s) =
        (.ok (newUser amb userIn hashedPw), .fresh t) := by
  have hraw : ∀ u ∈ s.users, u.email ≠ userIn.email := by
    intro u hu hemail
    apply hfree u hu
    rw [hemail]
    exact hlaws.sqlLower_normal hnormal
  obtain ⟨t, ht, htrows⟩ := Store.apply_exists
    (w := .insertUser (newUser amb userIn hashedPw)) rfl (constraints_insertUser hnew hraw)
  have hrow : t.user? amb.uuid4 = some (newUser amb userIn hashedPw) := by
    refine t.user?_eq_some.mpr ⟨?_, rfl⟩
    rw [htrows]
    exact List.mem_append_right _ List.mem_cons_self
  have hnone : s.answer (.usersByEmail amb.sqlLower (amb.text.normalize userIn.email)) =
      (none : Option User).toList := by
    rw [hnormal]
    exact List.filter_eq_nil_iff.mpr fun u hu => by simpa using hfree u hu
  refine ⟨t, htrows, ?_⟩
  refine (exec_bind_ok (exec_getUserByEmail hnone)).trans ?_
  refine (exec_pass Bool.false_ne_true).trans ?_
  refine (exec_bind_ok (a := hashedPw) (by rw [hashPassword, exec_ofExcept, hhashed])).trans ?_
  refine exec_commitOr409 (applyAll_cons_ok ht) ?_
  rw [exec_getUser, Session.fresh_working, hrow]

/-- A registration whose password is not hashed ends in that error. -/
theorem registerUser_unhashed (amb : Ambient) {e : Error}
    (hnone : s.answer (.usersByEmail amb.sqlLower (amb.text.normalize userIn.email)) =
      (none : Option User).toList)
    (hhashed : amb.hashpw userIn.password = .error e) :
    outcome s (registerUser amb userIn) = .error e := by
  refine outcome_of_exec (σ := .fresh s) ?_
  refine (exec_bind_ok (exec_getUserByEmail hnone)).trans ?_
  refine (exec_pass Bool.false_ne_true).trans ?_
  exact exec_bind_error (by rw [hashPassword, exec_ofExcept, hhashed])

/-- Whoever is found by the address gets in with a verified password. -/
theorem authenticateUser_eq {bcrypt : Bcrypt} {credentials : UserLogin} {user : User}
    {verified : Bool}
    (hfound : s.answer (.usersByEmail amb.sqlLower (amb.text.normalize credentials.email)) =
      (some user).toList)
    (hverified : verifyPassword bcrypt credentials.password user.passwordHash = .ok verified) :
    outcome s (authenticateUser amb bcrypt credentials) =
      if verified then .ok user else .error (http 401 "Invalid email or password") := by
  have hexec : (authenticateUser amb bcrypt credentials).exec (.fresh s) =
      (if verified then .ok user else .error (http 401 "Invalid email or password"),
        .fresh s) := by
    refine (exec_bind_ok (exec_getUserByEmail hfound)).trans ?_
    refine (exec_bind_ok (a := verified) (by rw [exec_ofExcept, hverified])).trans ?_
    cases verified <;> rfl
  exact outcome_of_exec hexec

end Login

section OnlyPassword
variable (bcrypt : Bcrypt) (salt : bcrypt.Salt) (amb : Ambient) (s : Store)

/-- The registration succeeds, and after it this login gets in as the new user just with
the registered password. -/
def OnlyPassword (userIn : UserRegister) (credentials : UserLogin) : Prop :=
  ∃ user, outcome s (registerUser (amb.hashing bcrypt salt) userIn) = .ok user ∧
    (outcome (leaves s (registerUser (amb.hashing bcrypt salt) userIn))
        (authenticateUser amb bcrypt credentials) = .ok user ↔
      credentials.password = userIn.password)

/-- A registration the schema admits, under an address and an identifier that are free. -/
structure Registrable (fields : UserRegisterFields) (userIn : UserRegister) : Prop where
  lawful : amb.text.Lawful
  admitted : UserRegister.validate amb fields = .ok userIn
  free : ∀ u ∈ s.users, amb.sqlLower u.email ≠ userIn.email
  unused : ∀ u ∈ s.users, u.id ≠ amb.uuid4

variable {bcrypt salt amb s} {fields : UserRegisterFields} {userIn : UserRegister}
  {credentials : UserLogin}

theorem Registrable.normal (h : Registrable amb s fields userIn) :
    amb.text.normalize userIn.email = userIn.email := by
  rw [(validate_register h.admitted).1, h.lawful.idempotent]

/-- With a hash, the property is what `verify_password` makes of it. -/
theorem onlyPassword_hashed (h : Registrable amb s fields userIn) {hashedPw : String}
    (hhashed : bcrypt.hashpw (encode userIn.password) salt = .ok hashedPw) {verified : Bool}
    (hsame : credentials.email = userIn.email)
    (hverified : verifyPassword bcrypt credentials.password hashedPw = .ok verified) :
    OnlyPassword bcrypt salt amb s userIn credentials ↔
      (verified = true ↔ credentials.password = userIn.password) := by
  obtain ⟨t, ht, hexec⟩ := registerUser_ok (amb.hashing bcrypt salt) h.lawful h.normal
    h.free h.unused hhashed
  have hleft : leaves s (registerUser (amb.hashing bcrypt salt) userIn) = t :=
    leaves_of_exec hexec
  have hfound : t.answer (.usersByEmail amb.sqlLower (amb.text.normalize credentials.email)) =
      (some (newUser (amb.hashing bcrypt salt) userIn hashedPw)).toList := by
    rw [hsame, h.normal]
    change t.users.filter (fun u => amb.sqlLower u.email = userIn.email) = _
    rw [ht, List.filter_append, List.filter_eq_nil_iff.mpr fun u hu => by simpa using h.free u hu]
    have hlower : amb.sqlLower userIn.email = userIn.email := h.lawful.sqlLower_normal h.normal
    simp [newUser, hlower]
  have hlogin := authenticateUser_eq hfound hverified
  constructor
  · rintro ⟨user, hok, hiff⟩
    obtain rfl := Except.ok.inj ((outcome_of_exec hexec).symm.trans hok)
    rw [← hiff, hleft, hlogin]
    cases verified <;> simp
  · intro hiff
    refine ⟨_, outcome_of_exec hexec, ?_⟩
    rw [hleft, hlogin, ← hiff]
    cases verified <;> simp

theorem onlyPassword_truncates (h : Registrable amb s fields userIn) (hbcrypt : bcrypt.Truncates)
    (hsame : credentials.email = userIn.email) :
    OnlyPassword bcrypt salt amb s userIn credentials ↔
      (bcryptBytes credentials.password = bcryptBytes userIn.password →
        credentials.password = userIn.password) := by
  obtain ⟨hashedPw, hhashed⟩ := hbcrypt.hashpw (encode userIn.password) salt
  rw [onlyPassword_hashed h hhashed hsame (verifyPassword_truncates hbcrypt hhashed _),
    decide_eq_true_iff]
  exact ⟨fun hiff => hiff.mp, fun himp => ⟨himp, fun heq => heq ▸ rfl⟩⟩

theorem onlyPassword_refuses (h : Registrable amb s fields userIn) (hbcrypt : bcrypt.Refuses)
    (hsame : credentials.email = userIn.email) :
    OnlyPassword bcrypt salt amb s userIn credentials ↔
      (encode userIn.password).length ≤ 72 := by
  by_cases hlength : (encode userIn.password).length ≤ 72
  · obtain ⟨hashedPw, hhashed⟩ := hbcrypt.hashpw (encode userIn.password) salt hlength
    rw [onlyPassword_hashed h hhashed hsame (verifyPassword_refuses hbcrypt hhashed _)]
    simp [hlength]
  · obtain ⟨message, hmessage⟩ := hbcrypt.hashpwLong (encode userIn.password) salt (by omega)
    refine ⟨fun ⟨user, hok, _⟩ => ?_, fun hshort => absurd hshort hlength⟩
    have hnone : s.answer (.usersByEmail amb.sqlLower (amb.text.normalize userIn.email)) =
        (none : Option User).toList := by
      rw [h.normal]
      exact List.filter_eq_nil_iff.mpr fun u hu => by simpa using h.free u hu
    have herror := registerUser_unhashed (amb.hashing bcrypt salt) hnone hmessage
    rw [herror] at hok
    cases hok

end OnlyPassword

section Example

def printed (bytes : List UInt8) : String := String.ofList (bytes.map Char.ofUInt8)

theorem printed_injective {a b : List UInt8} (h : printed a = printed b) : a = b := by
  have hchars : Function.Injective Char.ofUInt8 := fun x y hxy =>
    UInt8.toUInt32_inj.mp (congrArg Char.val hxy)
  exact List.map_injective_iff.mpr hchars (String.ofList_injective h)

/-- A bcrypt of version 4 that hashes a password to the bytes it takes of it. -/
def bcrypt4 : Bcrypt where
  Salt := Unit
  hashpw password _ := .ok (printed (password.take 72))
  checkpw plain hashed := .ok (decide (printed (plain.take 72) = hashed))

theorem bcrypt4_truncates : bcrypt4.Truncates where
  hashpw password _ := ⟨printed (password.take 72), rfl⟩
  checkpw password _ hashed h plain := by
    obtain rfl := Except.ok.inj h
    have hiff : printed (plain.take 72) = printed (password.take 72) ↔
        plain.take 72 = password.take 72 := ⟨printed_injective, fun heq => heq ▸ rfl⟩
    simp [bcrypt4, hiff]

/-- Eve's registration with some admitted password. -/
def eveFields (password : String) (h : 8 ≤ password.length ∧ password.length ≤ 128) :
    UserRegisterFields := ⟨"Eve", "Eve@Example.com", password, evesName, by decide, h⟩

theorem eve_registrable (password : String) (h : 8 ≤ password.length ∧ password.length ≤ 128) :
    Registrable (plainAmbient 40) newPlatform (eveFields password h)
      ⟨"Eve", "eve@example.com", password⟩ := by
  have hlower : lowerCase "Eve@Example.com" = "eve@example.com" := by decide
  have hformat : hasEmailFormat "eve@example.com" = true := by decide
  have hfree : ∀ u ∈ newPlatform.users, lowerCase u.email ≠ "eve@example.com" := by decide
  refine ⟨plainText_lawful, ?_, hfree, by decide⟩
  unfold UserRegister.validate UserRegister.normalizeEmail
  have hemail : (plainAmbient 40).lower ((plainAmbient 40).strip (eveFields password h).email) =
      "eve@example.com" := hlower
  simp only [hemail, hformat]
  rfl

def eveLogin (password : String) (h : password.length ≤ 128) : UserLoginFields :=
  ⟨"EVE@example.com", password, by decide, h⟩

theorem eve_same (password : String) (h : password.length ≤ 128) :
    (UserLogin.validate (plainAmbient 40) (eveLogin password h)).email = "eve@example.com" := by
  have hlower : lowerCase "EVE@example.com" = "eve@example.com" := by decide
  exact hlower

/-- Seventy-two letters. -/
def longPassword : String := String.ofList (List.replicate 72 'a')

end Example

end BookingPlatform
